import Strongbox.Proofs.Acts.Sealing
import Strongbox.Proofs.Callers.OneKey

/-! # What runs on key files draw and write

A run on a key file draws its key when it comes to that stage and nothing else, whatever becomes of
the file; and the key that a caller writes is the one that it drew itself, however the turns of
several callers are mixed. Nothing else is put in files, but for what a rival writes. -/

namespace Strongbox

namespace KeyFile

variable (path : Path) (faults : Faults) (caller : Nat)

def act (s : Stage) (w : World) : Act :=
  ⟨entropy w, .making caller faults s⟩

/-- The stages of a run, from a given one to the end. -/
def acts (s : Stage) (w : World) : List Act :=
  act faults caller s w ::
    match h : (advance path faults s w).1 with
    | .ended _ => []
    | .next s' =>
      have := remaining_lt_of_advance path faults h
      acts s' (advance path faults s w).2
termination_by s.remaining

variable {path faults caller} {s s' : Stage} {w : World}

theorem acts_of_ended {result : Except Abort Bytes}
    (h : (advance path faults s w).1 = .ended result) :
    acts path faults caller s w = [act faults caller s w] := by
  rw [acts]
  split
  · rfl
  · rename_i s' hnext
    cases h.symm.trans hnext

theorem acts_of_next (h : (advance path faults s w).1 = .next s') :
    acts path faults caller s w =
      act faults caller s w :: acts path faults caller s' (advance path faults s w).2 := by
  rw [acts]
  split
  · rename_i result hended
    cases h.symm.trans hended
  · rename_i s'' hnext
    cases h.symm.trans hnext
    rfl

/-- Only the stage that draws the key reads the source. -/
theorem advance_entropy (path : Path) (faults : Faults) (caller : Nat) (s : Stage) (w : World) :
    entropy (advance path faults s w).2 = (act faults caller s w).left := by
  cases s with
  | draw =>
      unfold advance drawSecret
      cases hfault : faults.entropy with
      | some e => simp [act, Act.left, Deed.drawn?, hfault]
      | none =>
          simp [act, Act.left, Deed.drawn?, hfault]
          rfl
  | _ =>
      simp only [advance, makeParents, lookForFile, loadFile, createFile, openStream, writeSecret,
        closeStream, discardPartial, hardenFile]
      repeat' split
      all_goals rfl

/-! ### What is put in files -/

theorem contentAt_afterRival {t t' : FileTree} {l : Location} {content : Bytes}
    (h : afterRival path faults t = .ok t') (hcontent : t'.contentAt l = some content) :
    t.contentAt l = some content ∨ faults.rival = some content := by
  unfold afterRival at h
  split at h
  · obtain rfl := Except.ok.inj h
    exact .inl hcontent
  · rename_i octets hrival
    rcases FileTree.contentAt_writeFile h hcontent with hold | rfl
    · exact .inl hold
    · exact .inr hrival

/-- The files after a creation: those before it, those that a rival leaves, or these with a new file
among them. -/
theorem createFile_files (secret : Bytes) (w : World) :
    (createFile path faults secret w).2.files = w.files ∨
      ∃ t, afterRival path faults w.files = .ok t ∧
        ((createFile path faults secret w).2.files = t ∨
          ∃ l t', t.createFile (toString path) openMode = .ok (l, t') ∧
            (createFile path faults secret w).2.files = t') := by
  unfold createFile creation
  by_cases hnul : path.hasNul
  · rw [if_pos hnul]
    exact .inl rfl
  · rw [if_neg hnul]
    cases hrival : afterRival path faults w.files with
    | error code => exact .inl rfl
    | ok t =>
        refine .inr ⟨t, rfl, ?_⟩
        dsimp only
        cases faults.create with
        | some e => exact .inl rfl
        | none =>
            dsimp only
            cases hcreate : t.createFile (toString path) openMode with
            | error code => exact .inl rfl
            | ok created => exact .inr ⟨created.1, created.2, rfl, rfl⟩

theorem createFile_puts (secret : Bytes) (w : World) :
    PutBy [act faults caller (.create secret) w] w.files
      (createFile path faults secret w).2.files := by
  intro l content hcontent
  have hnew : w.files.contentAt l = some content ∨ content = [] ∨ faults.rival = some content := by
    rcases createFile_files secret w with hsame | ⟨t, hrival, hsame | ⟨file, t', hcreate, hsame⟩⟩
    · exact .inl (hsame ▸ hcontent)
    · exact (contentAt_afterRival hrival (hsame ▸ hcontent)).imp_right .inr
    · rcases FileTree.contentAt_createFile hcreate (hsame ▸ hcontent) with hold | hempty
      · exact (contentAt_afterRival hrival hold).imp_right .inr
      · exact .inr (.inl hempty)
  exact hnew.imp_right fun h => ⟨_, .head _, h⟩

theorem writeSecret_puts (secret : Bytes) (file : Location) (w : World) :
    PutBy [act faults caller (.write secret file) w] w.files
      (writeSecret faults secret file w).2.files := by
  intro l content hcontent
  unfold writeSecret at hcontent
  split at hcontent
  · rename_i kept i hfault
    rcases FileTree.contentAt_fill hcontent with hold | ⟨rfl, rfl⟩
    · exact .inl hold
    · refine .inr ⟨_, .head _, rfl, List.take_prefix kept secret, fun hnone => ?_⟩
      cases hfault.symm.trans hnone
  · rcases FileTree.contentAt_fill hcontent with hold | ⟨rfl, rfl⟩
    · exact .inl hold
    · exact .inr ⟨_, .head _, rfl, List.prefix_rfl, fun _ => rfl⟩

theorem makeParents_contentAt (w : World) (l : Location) :
    (makeParents path faults w).2.files.contentAt l = w.files.contentAt l := by
  have hmade := (w.files.ensureDirectory_made path.parent).contentAt_eq l
  unfold makeParents
  split
  · rfl
  · split
    · rfl
    · generalize w.files.ensureDirectory path.parent = led at hmade
      obtain ⟨_ | _, files⟩ := led
      · exact hmade
      · exact hmade

theorem contentAt_of_discardPartial {cause : SystemError} {l : Location} {content : Bytes}
    (h : (discardPartial path faults cause w).2.files.contentAt l = some content) :
    w.files.contentAt l = some content := by
  unfold discardPartial removal at h
  cases hfault : faults.discard with
  | some e =>
      rw [hfault] at h
      exact h
  | none =>
      rw [hfault] at h
      cases hunlink : w.files.unlink (toString path) with
      | error code =>
          rw [hunlink] at h
          exact h
      | ok t =>
          rw [hunlink] at h
          exact FileTree.contentAt_unlink hunlink h

theorem contentAt_of_hardenFile {secret : Bytes} {l : Location} {content : Bytes}
    (h : (hardenFile path faults secret w).2.files.contentAt l = some content) :
    w.files.contentAt l = some content := by
  unfold hardenFile hardening at h
  cases hfault : faults.harden with
  | some e =>
      rw [hfault] at h
      exact h
  | none =>
      rw [hfault] at h
      cases hmode : w.files.changeMode (toString path) hardMode with
      | error code =>
          rw [hmode] at h
          exact h
      | ok t =>
          rw [hmode] at h
          exact FileTree.contentAt_changeMode hmode h

theorem advance_puts (path : Path) (faults : Faults) (caller : Nat) (s : Stage) (w : World) :
    PutBy [act faults caller s w] w.files (advance path faults s w).2.files := by
  cases s with
  | parents =>
      intro l content hcontent
      exact .inl ((makeParents_contentAt w l).symm.trans hcontent)
  | create secret => exact createFile_puts secret w
  | write secret file => exact writeSecret_puts secret file w
  | discard cause => exact fun _ _ hcontent => .inl (contentAt_of_discardPartial hcontent)
  | harden secret => exact fun _ _ hcontent => .inl (contentAt_of_hardenFile hcontent)
  | _ =>
      simp only [advance, lookForFile, loadFile, drawSecret, openStream, closeStream]
      repeat' split
      all_goals exact .refl _ w.files

theorem advance_explains (path : Path) (faults : Faults) (caller : Nat) (s : Stage) (w : World) :
    Explains (trace w) [act faults caller s w] (trace (advance path faults s w).2) :=
  ⟨⟨rfl, advance_entropy path faults caller s w⟩, advance_puts path faults caller s w⟩

theorem finish_explains (s : Stage) (w : World) :
    Explains (trace w) (acts path faults caller s w) (trace (finish path faults s w).2) := by
  fun_induction finish path faults s w with
  | case1 s w result hended =>
      rw [acts_of_ended hended]
      exact advance_explains path faults caller s w
  | case2 s w s' hnext _ ih =>
      rw [acts_of_next hnext]
      exact (advance_explains path faults caller s w).append ih

/-! ### Whose key is at hand -/

/-- A stage hands on the key that it has, and a new one comes from the source only. -/
theorem secret?_of_advance {secret : Bytes} (hnext : (advance path faults s w).1 = .next s')
    (hsecret : s'.secret? = some secret) :
    s.secret? = some secret ∨
      s = .draw ∧ faults.entropy = none ∧ secret = fresh w := by
  cases s with
  | draw =>
      refine .inr ⟨rfl, ?_⟩
      unfold advance drawSecret at hnext
      cases hfault : faults.entropy with
      | some e => simp [hfault, Move.unusable] at hnext
      | none =>
          rw [hfault] at hnext
          obtain rfl := Move.next.inj hnext
          obtain rfl := Option.some.inj hsecret
          exact ⟨rfl, rfl⟩
  | _ =>
      left
      simp only [advance, makeParents, lookForFile, loadFile, createFile, openStream, writeSecret,
        closeStream, discardPartial, hardenFile, Move.unusable, Move.misused,
        Move.interrupted] at hnext
      repeat' split at hnext
      all_goals cases hnext
      all_goals first | exact hsecret | cases hsecret

/-- The key that is at hand is the one that the caller drew last. -/
def Stage.Keeps (known : Nat → Option Bytes) (caller : Nat) (s : Stage) : Prop :=
  ∀ secret, s.secret? = some secret → known caller = some secret

variable {known : Nat → Option Bytes}

theorem noted_act (hs : s ≠ .draw) : (act faults caller s w).noted known = known := by
  cases s with
  | draw => exact absurd rfl hs
  | _ => rfl

theorem noted_act_draw (hfault : faults.entropy = none) :
    (act faults caller .draw w).noted known caller = some (fresh w) := by
  have hdrawn : (act faults caller .draw w).deed.drawn? = some Key.size := by
    simp [act, Deed.drawn?, hfault]
  simp only [Act.noted, act, hfault, Option.isNone_none, ite_true]
  exact congrArg some (Act.octets_eq_draw hdrawn)

theorem Stage.Keeps.advance (hkeeps : s.Keeps known caller)
    (hnext : (advance path faults s w).1 = .next s') :
    s'.Keeps ((act faults caller s w).noted known) caller := by
  intro secret hsecret
  rcases secret?_of_advance hnext hsecret with hold | ⟨rfl, hfault, rfl⟩
  · rw [noted_act]
    · exact hkeeps secret hold
    · rintro rfl
      cases hold
  · exact noted_act_draw hfault

theorem Stage.Keeps.writes (hkeeps : s.Keeps known caller) :
    ∀ caller' faults' s' secret, (act faults caller s w).deed = .making caller' faults' s' →
      s'.secret? = some secret → known caller' = some secret := by
  intro caller' faults' s' secret hdeed hsecret
  cases hdeed
  exact hkeeps secret hsecret

theorem acts_writesOwn (hkeeps : s.Keeps known caller) :
    WritesOwn known (acts path faults caller s w) := by
  -- The induction follows the run, with the key at hand known at each stage.
  fun_induction finish path faults s w generalizing known with
  | case1 s w result hended =>
      rw [acts_of_ended hended]
      exact ⟨hkeeps.writes, trivial⟩
  | case2 s w s' hnext _ ih =>
      rw [acts_of_next hnext]
      exact ⟨hkeeps.writes, ih (hkeeps.advance hnext)⟩

/-! ## Runs, stores and handlers -/

theorem keeps_parents (known : Nat → Option Bytes) (caller : Nat) :
    Stage.parents.Keeps known caller :=
  nofun

/-- The account of a run by a single caller. -/
def ensureActs (path : Path) (faults : Faults) : Action (List Act) :=
  return acts path faults 0 .parents (← get)

theorem ensure_accounts (path : Path) (faults : Faults) :
    Accounts (ensureActs path faults) (ensure path faults) :=
  ⟨fun w => finish_explains .parents w, fun _ known => acts_writesOwn (keeps_parents known 0)⟩

theorem ensureOrExit_accounts (path : Path) (faults : Faults) :
    Accounts (ensureActs path faults) (ensureOrExit path faults) := by
  refine (ensure_accounts path faults).tryCatch fun e => ?_
  split
  · exact (Leaves.log _ _).inWorld.bind fun _ => .throw _
  · exact .throw _

end KeyFile

namespace KeyStore

theorem silent_make (path : Path) (fatal : Bool) : Silent (make path fatal) := by
  refine Leaves.get.bind fun w => ?_
  split
  · exact .pure _
  · exact .throw _

theorem fetch_accounts (s : KeyStore) (faults : KeyFile.Faults) :
    Accounts (KeyFile.ensureActs s.path faults) (s.fetch faults) := by
  unfold fetch
  split
  · exact KeyFile.ensureOrExit_accounts s.path faults
  · exact KeyFile.ensure_accounts s.path faults

/-- The account of a load. A store that has its key does nothing. -/
def acts (faults : KeyFile.Faults) : StoreAction (List Act) := do
  let s := (← get).store
  match s.key with
  | some _ => return []
  | none => (KeyFile.ensureActs s.path faults).inCustody

theorem load_accounts (faults : KeyFile.Faults) : Accounts (acts faults) (load faults) := by
  refine .bind .get fun c => ?_
  dsimp only
  cases c.store.key with
  | some key => exact .of_silent (.pure _)
  | none =>
      refine (fetch_accounts _ faults).inCustody.then_silent fun key => ?_
      exact .bind (.modify fun _ => rfl) fun _ => .pure _

theorem handler_accounts (marker : String) (faults : KeyFile.Faults) :
    Accounts (acts faults) (handler marker faults) := by
  refine (load_accounts faults).then_silent fun key => ?_
  split
  · exact (Handler.silent_make _ _).inWorld.inCustody
  · exact .throw _

end KeyStore

/-! ## Several callers -/

/-- The stage on a key file that a caller goes through next, if any. -/
def Caller.acts (c : Caller) (i : Nat) (w : World) : List Act :=
  match c.stage with
  | .fetch s => [KeyFile.act c.faults i s w]
  | _ => []

/-- A caller on a key file has at hand the key that it drew last. -/
def CallerStage.Keeps (known : Nat → Option Bytes) (i : Nat) : CallerStage → Prop
  | .fetch s => s.Keeps known i
  | _ => True

namespace Crowd

variable {crowd : Crowd} {i : Nat} {c : Caller} {s : KeyStore} {known : Nat → Option Bytes}

theorem escalate_trace (s : KeyStore) (result : Except Abort Bytes) (w : World) :
    trace (escalate s result w).2 = trace w := by
  unfold escalate
  repeat' split
  all_goals rfl

theorem act_explains (c : Caller) (i : Nat) (s : KeyStore) (held : List Location) (w : World) :
    Explains (trace w) (c.acts i w) (trace (act c s held w).2.2.2) := by
  unfold act Caller.acts
  cases c.stage with
  | fetch stage =>
      have hadvance := KeyFile.advance_explains s.path c.faults i stage w
      dsimp only
      generalize KeyFile.advance s.path c.faults stage w = led at hadvance
      obtain ⟨_ | result, w'⟩ := led
      · exact hadvance
      · dsimp only
        rw [escalate_trace]
        exact hadvance
  | _ =>
      dsimp only
      repeat' split
      all_goals exact .nil (trace w)

theorem act_keeps (h : c.stage.Keeps known i) (held : List Location) (w : World) :
    (act c s held w).1.Keeps ((c.acts i w).foldl Act.noted known) i := by
  unfold act Caller.acts
  cases hstage : c.stage with
  | fetch stage =>
      rw [hstage] at h
      dsimp only
      cases hled : KeyFile.advance s.path c.faults stage w with
      | mk move w' =>
          cases move with
          | next stage' => exact KeyFile.Stage.Keeps.advance h (congrArg Prod.fst hled)
          | ended result => trivial
  | recheck =>
      cases s.key with
      | some key => trivial
      | none => exact KeyFile.keeps_parents known i
  | _ =>
      dsimp only
      repeat' split
      all_goals trivial

theorem acts_writesOwn_of_keeps (h : c.stage.Keeps known i) (w : World) :
    WritesOwn known (c.acts i w) := by
  unfold Caller.acts
  cases hstage : c.stage with
  | fetch stage =>
      rw [hstage] at h
      exact ⟨KeyFile.Stage.Keeps.writes h, trivial⟩
  | _ => trivial

/-- What the turn of a caller does to key files. -/
def turnActs (crowd : Crowd) (i : Nat) : List Act :=
  match crowd.callers[i]? with
  | none => []
  | some c =>
    match crowd.stores[c.store]? with
    | none => []
    | some _ => c.acts i crowd.world

def acts : Crowd → List Nat → List Act
  | _, [] => []
  | crowd, i :: turns => crowd.turnActs i ++ acts (crowd.turn i) turns

theorem At.turnActs (hat : crowd.At i c s) : crowd.turnActs i = c.acts i crowd.world := by
  simp only [Crowd.turnActs, hat.1, hat.2]

theorem turnActs_eq_nil (h : ∀ c s, ¬ crowd.At i c s) : crowd.turnActs i = [] := by
  unfold turnActs
  cases hc : crowd.callers[i]? with
  | none => rfl
  | some c =>
      cases hs : crowd.stores[c.store]? with
      | none => simp only [hs]
      | some s => exact absurd ⟨hc, hs⟩ (h c s)

theorem turn_explains (crowd : Crowd) (i : Nat) :
    Explains (trace crowd.world) (crowd.turnActs i) (trace (crowd.turn i).world) := by
  by_cases hat : ∃ c s, crowd.At i c s
  · obtain ⟨c, s, hat⟩ := hat
    rw [turn_eq hat, hat.turnActs]
    exact act_explains c i s crowd.held crowd.world
  · have hnone : ∀ c s, ¬ crowd.At i c s := fun c s h => hat ⟨c, s, h⟩
    rw [turnActs_eq_nil hnone, turn_eq_self hnone]
    exact .nil _

theorem run_explains (crowd : Crowd) (turns : List Nat) :
    Explains (trace crowd.world) (crowd.acts turns) (trace (crowd.run turns).world) := by
  induction turns generalizing crowd with
  | nil => exact .nil _
  | cons i turns ih => exact (crowd.turn_explains i).append (ih (crowd.turn i))

/-- Every caller on a key file has at hand the key that it drew last. -/
def Keeps (known : Nat → Option Bytes) (crowd : Crowd) : Prop :=
  ∀ (i : Nat) (c : Caller), crowd.callers[i]? = some c → c.stage.Keeps known i

/-- What one caller draws is no other caller's. -/
theorem keeps_foldl_acts {j : Nat} (hne : j ≠ i) (w : World) (stage : CallerStage) :
    stage.Keeps ((c.acts i w).foldl Act.noted known) j ↔ stage.Keeps known j := by
  have hother : (c.acts i w).foldl Act.noted known j = known j := by
    unfold Caller.acts
    split
    · exact Act.noted_of_ne hne
    · rfl
  cases stage with
  | fetch s =>
      unfold CallerStage.Keeps KeyFile.Stage.Keeps
      dsimp only
      rw [hother]
  | _ => exact .rfl

theorem Keeps.turn (h : crowd.Keeps known) (i : Nat) :
    (crowd.turn i).Keeps ((crowd.turnActs i).foldl Act.noted known) := by
  by_cases hat : ∃ c s, crowd.At i c s
  · obtain ⟨c, s, hat⟩ := hat
    rw [turn_eq hat, hat.turnActs]
    intro j d hd
    by_cases hj : j = i
    · subst hj
      have hlt := (List.getElem?_eq_some_iff.mp hat.1).1
      rw [List.getElem?_set_self hlt] at hd
      obtain rfl := Option.some.inj hd
      exact act_keeps (h j c hat.1) crowd.held crowd.world
    · rw [List.getElem?_set_ne (Ne.symm hj)] at hd
      exact (keeps_foldl_acts hj crowd.world d.stage).mpr (h j d hd)
  · have hnone : ∀ c s, ¬ crowd.At i c s := fun c s h => hat ⟨c, s, h⟩
    rw [turnActs_eq_nil hnone, turn_eq_self hnone]
    exact h

theorem Keeps.turnActs_writesOwn (h : crowd.Keeps known) (i : Nat) :
    WritesOwn known (crowd.turnActs i) := by
  by_cases hat : ∃ c s, crowd.At i c s
  · obtain ⟨c, s, hat⟩ := hat
    rw [hat.turnActs]
    exact acts_writesOwn_of_keeps (h i c hat.1) crowd.world
  · rw [turnActs_eq_nil fun c s h => hat ⟨c, s, h⟩]
    trivial

theorem acts_writesOwn (h : crowd.Keeps known) (turns : List Nat) :
    WritesOwn known (crowd.acts turns) := by
  induction turns generalizing crowd known with
  | nil => trivial
  | cons i turns ih => exact writesOwn_append.mpr ⟨h.turnActs_writesOwn i, ih (h.turn i)⟩

end Crowd

end Strongbox
