import Strongbox.Handler
import Strongbox.KeyFile
import Strongbox.Proofs.Files.Resolution
import Strongbox.Proofs.Silence

/-! # Acts on the random source and on files

What reads the random source is an encryption that gets as far as its vector and the making of a
key file that gets as far as its key. An act is recorded with the source as it finds it, so that a
list of acts says which segment each of them reads, and what of it is put in files. -/

namespace Strongbox

/-- How an envelope is handed over: as octets, as text behind a marker, or on the line that ends
what a command prints. -/
inductive EnvelopeForm
  | octets
  | text (marker : String)
  | printed (front marker : String)

/-- The octets to be encrypted, if the value is one that can be encrypted in this form. -/
def EnvelopeForm.plaintext? : EnvelopeForm → Value → Option Bytes
  | octets, .bytes _ bs => some bs
  | text _, .text s | printed _ _, .text s => some (Utf8.encode s)
  | _, _ => none

/-- A value that a cipher is asked to encrypt. -/
structure Sealing where
  cipher : Cipher
  form : EnvelopeForm
  value : Value

/-- An encryption that is asked for, one stage of a caller's run on a key file, or a call on files
that the session makes itself. -/
inductive Deed
  | sealing (s : Sealing)
  | making (caller : Nat) (faults : KeyFile.Faults) (s : KeyFile.Stage)
  | filing

/-- What is drawn: a vector for a plaintext of the right type, whatever the primitive then does, and
a key when a key file is to be made, whatever then becomes of the file. A source that refuses gives
nothing. -/
def Deed.drawn? : Deed → Option Nat
  | sealing s => if (s.form.plaintext? s.value).isSome then some Envelope.ivSize else none
  | making _ faults .draw => if faults.entropy.isNone then some Key.size else none
  | making _ _ _ | filing => none

/-- A deed and the random source as it finds it. -/
structure Act where
  source : Entropy
  deed : Deed

namespace Act

def start (a : Act) : Nat :=
  a.source.position

def size (a : Act) : Nat :=
  a.deed.drawn?.getD 0

def stop (a : Act) : Nat :=
  a.start + a.size

/-- The segment that is read. -/
def octets (a : Act) : Bytes :=
  a.source.segment a.start a.size

/-- The source afterwards. -/
def left (a : Act) : Entropy :=
  match a.deed.drawn? with
  | some size => (a.source.draw size).2
  | none => a.source

theorem left_stream (a : Act) : a.left.stream = a.source.stream := by
  unfold left
  split <;> rfl

theorem left_position (a : Act) : a.left.position = a.stop := by
  unfold left stop size start
  split
  · rename_i size hsize
    rw [Entropy.position_draw, hsize, Option.getD_some]
  · rename_i hnone
    rw [hnone, Option.getD_none, Nat.add_zero]

theorem left_draws (a : Act) : a.left.draws = a.deed.drawn?.toList ++ a.source.draws := by
  unfold left
  split
  · rename_i size hsize
    rw [hsize]
    rfl
  · rename_i hnone
    rw [hnone]
    rfl

theorem octets_eq_draw {a : Act} {size : Nat} (h : a.deed.drawn? = some size) :
    a.octets = (a.source.draw size).1 := by
  rw [octets, Act.size, h]
  rfl

end Act

/-- How much is read by all of them. -/
def totalSize : List Act → Nat
  | [] => 0
  | a :: rest => a.size + totalSize rest

/-- Each act finds the source as the one before has left it, from the first source to the last. -/
def Follows (e : Entropy) : List Act → Entropy → Prop
  | [], e' => e' = e
  | a :: rest, e' => a.source = e ∧ Follows a.left rest e'

namespace Follows

variable {e e' e'' : Entropy} {acts acts' : List Act}

theorem append (h : Follows e acts e') (h' : Follows e' acts' e'') :
    Follows e (acts ++ acts') e'' := by
  induction acts generalizing e with
  | nil =>
      obtain rfl : e' = e := h
      exact h'
  | cons a rest ih => exact ⟨h.1, ih h.2⟩

theorem stream_eq (h : Follows e acts e') : e'.stream = e.stream := by
  induction acts generalizing e with
  | nil => rw [show e' = e from h]
  | cons a rest ih => rw [ih h.2, a.left_stream, h.1]

theorem position_eq (h : Follows e acts e') : e'.position = e.position + totalSize acts := by
  induction acts generalizing e with
  | nil =>
      rw [show e' = e from h]
      rfl
  | cons a rest ih =>
      rw [ih h.2, a.left_position, Act.stop, Act.start, h.1, totalSize, Nat.add_assoc]

/-- The draws are those of the acts and no others. -/
theorem draws_eq (h : Follows e acts e') :
    e'.draws = (acts.filterMap fun a => a.deed.drawn?).reverse ++ e.draws := by
  induction acts generalizing e with
  | nil => rw [show e' = e from h, List.filterMap_nil, List.reverse_nil, List.nil_append]
  | cons a rest ih =>
      rw [ih h.2, a.left_draws, h.1, List.filterMap_cons]
      cases a.deed.drawn? <;> simp

theorem octets_eq (h : Follows e acts e') {a : Act} (ha : a ∈ acts) :
    a.octets = e.segment a.start a.size := by
  induction acts generalizing e with
  | nil => cases ha
  | cons b rest ih =>
      obtain ⟨rfl, hrest⟩ := h
      cases ha with
      | head => rfl
      | tail _ ha =>
          rw [ih hrest ha]
          unfold Entropy.segment
          rw [b.left_stream]

theorem position_le (h : Follows e acts e') {a : Act} (ha : a ∈ acts) : e.position ≤ a.start := by
  induction acts generalizing e with
  | nil => cases ha
  | cons b rest ih =>
      obtain ⟨rfl, hrest⟩ := h
      cases ha with
      | head => exact Nat.le_refl _
      | tail _ ha =>
          have hle := ih hrest ha
          rw [b.left_position] at hle
          exact Nat.le_trans (Nat.le_add_right b.start b.size) hle

/-- A later act reads further on. -/
theorem pairwise (h : Follows e acts e') : acts.Pairwise fun a b => a.stop ≤ b.start := by
  induction acts generalizing e with
  | nil => exact .nil
  | cons a rest ih =>
      refine .cons (fun b hb => ?_) (ih h.2)
      rw [← a.left_position]
      exact h.2.position_le hb

end Follows

/-! ## Whose key is written -/

/-- The keys drawn last, by the callers that drew them, after an act. -/
def Act.noted (known : Nat → Option Bytes) (a : Act) : Nat → Option Bytes :=
  match a.deed with
  | .making caller faults .draw =>
    if faults.entropy.isNone then fun i => if i = caller then some a.octets else known i else known
  | _ => known

theorem Act.noted_of_ne {known : Nat → Option Bytes} {e : Entropy} {caller i : Nat}
    {faults : KeyFile.Faults} {s : KeyFile.Stage} (h : i ≠ caller) :
    Act.noted known ⟨e, .making caller faults s⟩ i = known i := by
  unfold noted
  cases s with
  | draw =>
      dsimp only
      split
      · exact if_neg h
      · rfl
  | _ => rfl

/-- Only a draw changes what is known of a caller. -/
theorem Act.noted_eq (a : Act) (known : Nat → Option Bytes) (i : Nat) :
    a.noted known i = known i ∨
      ∃ faults, a.deed = .making i faults .draw ∧ a.size = Key.size ∧
        a.noted known i = some a.octets := by
  obtain ⟨e, deed⟩ := a
  cases deed with
  | sealing s => exact .inl rfl
  | filing => exact .inl rfl
  | making caller faults s =>
      cases s with
      | draw =>
          by_cases hi : i = caller
          · subst hi
            cases hfault : faults.entropy with
            | none => exact .inr ⟨faults, by simp [noted, size, Deed.drawn?, hfault]⟩
            | some e => exact .inl (by simp [noted, hfault])
          · exact .inl (noted_of_ne hi)
      | _ => exact .inl rfl

/-- The key that is at hand at a stage, to be written or just written. -/
def KeyFile.Stage.secret? : KeyFile.Stage → Option Bytes
  | create secret | stream secret _ | write secret _ | close secret | harden secret => some secret
  | _ => none

/-- Whoever writes a key to a file or hands it over as written has drawn it itself, and none
since. -/
def WritesOwn (known : Nat → Option Bytes) : List Act → Prop
  | [] => True
  | a :: rest =>
    (∀ caller faults s secret, a.deed = .making caller faults s → s.secret? = some secret →
      known caller = some secret) ∧ WritesOwn (a.noted known) rest

theorem writesOwn_append {known : Nat → Option Bytes} {acts acts' : List Act} :
    WritesOwn known (acts ++ acts') ↔
      WritesOwn known acts ∧ WritesOwn (acts.foldl Act.noted known) acts' := by
  induction acts generalizing known with
  | nil => simp [WritesOwn]
  | cons a rest ih => simp only [List.cons_append, WritesOwn, ih, List.foldl_cons, and_assoc]

/-- A key that is at hand has been drawn by the same caller, if none was at hand before. -/
theorem WritesOwn.exists_draw {known : Nat → Option Bytes} {acts : List Act}
    (h : WritesOwn known acts) {a : Act} {caller : Nat} {faults : KeyFile.Faults}
    {s : KeyFile.Stage} {secret : Bytes} (ha : a ∈ acts) (hdeed : a.deed = .making caller faults s)
    (hsecret : s.secret? = some secret) :
    known caller = some secret ∨
      ∃ b ∈ acts, ∃ faults', b.deed = .making caller faults' .draw ∧ b.size = Key.size ∧
        b.octets = secret := by
  induction acts generalizing known with
  | nil => cases ha
  | cons c rest ih =>
      cases ha with
      | head => exact .inl (h.1 caller faults s secret hdeed hsecret)
      | tail _ ha =>
          rcases ih h.2 ha with hknown | ⟨b, hb, hdraw⟩
          · rcases c.noted_eq known caller with hsame | ⟨faults', hdraw, hsize, hnoted⟩
            · exact .inl (hsame ▸ hknown)
            · refine .inr ⟨c, .head _, faults', hdraw, hsize, ?_⟩
              exact Option.some.inj (hnoted.symm.trans hknown)
          · exact .inr ⟨b, .tail _ hb, hdraw⟩

/-! ## What is put in files -/

/-- The act may put this in the file at a location: nothing in a new file, unless a rival gets
ahead, and then the key, or as much of it as gets written. -/
def Act.Puts (a : Act) (l : Location) (content : Bytes) : Prop :=
  match a.deed with
  | .making _ faults (.create _) => content = [] ∨ faults.rival = some content
  | .making _ faults (.write secret file) =>
    l = file ∧ content <+: secret ∧ (faults.write = none → content = secret)
  | .filing => True
  | .sealing _ | .making _ _ _ => False

/-- What is in files has been put there, or it was there before. -/
def PutBy (acts : List Act) (t t' : FileTree) : Prop :=
  ∀ l content, t'.contentAt l = some content →
    t.contentAt l = some content ∨ ∃ a ∈ acts, a.Puts l content

namespace PutBy

variable {acts acts' : List Act} {t t' t'' : FileTree}

theorem refl (acts : List Act) (t : FileTree) : PutBy acts t t :=
  fun _ _ h => .inl h

theorem append (h : PutBy acts t t') (h' : PutBy acts' t' t'') : PutBy (acts ++ acts') t t'' := by
  intro l content hcontent
  rcases h' l content hcontent with hcontent | ⟨a, ha, hputs⟩
  · rcases h l content hcontent with hcontent | ⟨a, ha, hputs⟩
    · exact .inl hcontent
    · exact .inr ⟨a, List.mem_append_left _ ha, hputs⟩
  · exact .inr ⟨a, List.mem_append_right _ ha, hputs⟩

end PutBy

/-- Acts account for all that became of the source and of the files. -/
structure Explains (tr : Trace) (acts : List Act) (tr' : Trace) : Prop where
  follows : Follows tr.entropy acts tr'.entropy
  puts : PutBy acts tr.files tr'.files

namespace Explains

variable {tr tr' tr'' : Trace} {acts acts' : List Act}

theorem nil (tr : Trace) : Explains tr [] tr :=
  ⟨rfl, .refl [] tr.files⟩

theorem append (h : Explains tr acts tr') (h' : Explains tr' acts' tr'') :
    Explains tr (acts ++ acts') tr'' :=
  ⟨h.follows.append h'.follows, h.puts.append h'.puts⟩

end Explains

/-- How something comes to be in a file. A key in a file has been drawn and written by one
caller. -/
inductive Origin (acts : List Act) (l : Location) (content : Bytes) : Prop
  | filed {a : Act} (ha : a ∈ acts) (hfiling : a.deed = .filing)
  | created {a : Act} {caller : Nat} {faults : KeyFile.Faults} {secret : Bytes} (ha : a ∈ acts)
      (hcreation : a.deed = .making caller faults (.create secret))
      (hcontent : content = [] ∨ faults.rival = some content)
  | written {a b : Act} {caller : Nat} {faults faults' : KeyFile.Faults} (ha : a ∈ acts)
      (hb : b ∈ acts) (hdraw : a.deed = .making caller faults .draw) (hsize : a.size = Key.size)
      (hwriting : b.deed = .making caller faults' (.write a.octets l))
      (hcontent : content <+: a.octets) (hwhole : faults'.write = none → content = a.octets)

/-- Whatever acts put in files while nobody has a key at hand at first has its origin in them. -/
theorem PutBy.origin {acts : List Act} {t t' : FileTree} (h : PutBy acts t t')
    (hown : WritesOwn (fun _ => none) acts) {l : Location} {content : Bytes}
    (hcontent : t'.contentAt l = some content) :
    t.contentAt l = some content ∨ Origin acts l content := by
  rcases h l content hcontent with hold | ⟨a, ha, hputs⟩
  · exact .inl hold
  · right
    unfold Act.Puts at hputs
    split at hputs
    · rename_i caller faults secret hdeed
      exact .created ha hdeed hputs
    · rename_i caller faults secret file hdeed
      obtain ⟨rfl, hprefix, hwhole⟩ := hputs
      obtain hnone | ⟨b, hb, faults', hdraw, hsize, rfl⟩ := hown.exists_draw ha hdeed rfl
      · cases hnone
      · exact .written hb ha hdraw hsize hdeed hprefix hwhole
    · rename_i hdeed
      exact .filed ha hdeed
    · cases hputs
    · cases hputs

/-! ## Encryption -/

/-- The act of an encryption that is asked for now. -/
def Sealing.act (s : Sealing) (e : Entropy) : Act :=
  ⟨e, .sealing s⟩

theorem writesOwn_sealing (known : Nat → Option Bytes) (s : Sealing) (e : Entropy) :
    WritesOwn known [s.act e] := by
  refine ⟨?_, trivial⟩
  intro caller faults stage secret hdeed
  cases hdeed

/-! ## Accounts

An account goes along with an operation, does what leads up to the acts as the operation does, and
ends with the list of them. It is silent where the operation is. -/

section

variable {ε σ α β : Type}

/-- The acts on an account, none if it comes to nothing. -/
def recorded (acct : ExceptT ε (StateM σ) (List Act)) (s : σ) : List Act :=
  match (lead acct s).1 with
  | .ok acts => acts
  | .error _ => []

/-- The acts of an operation, and then those of what comes next if it comes to something. -/
def followed (acct : ExceptT ε (StateM σ) (List Act)) (m : ExceptT ε (StateM σ) α)
    (rest : α → ExceptT ε (StateM σ) (List Act)) : ExceptT ε (StateM σ) (List Act) :=
  ExceptT.mk fun s =>
    let more := match lead m s with
      | (.ok a, s') => recorded (rest a) s'
      | (.error _, _) => []
    (.ok (recorded acct s ++ more), (lead m s).2)

theorem recorded_eq {ε' σ' : Type} {acct : ExceptT ε (StateM σ) (List Act)}
    {acct' : ExceptT ε' (StateM σ') (List Act)} {s : σ} {s' : σ'} {f : ε' → ε}
    (h : (lead acct s).1 = (lead acct' s').1.mapError f) : recorded acct s = recorded acct' s' := by
  rw [recorded, h, recorded]
  cases (lead acct' s').1 <;> rfl

theorem recorded_bind (m : ExceptT ε (StateM σ) α) (accts : α → ExceptT ε (StateM σ) (List Act))
    (s : σ) :
    recorded (m >>= accts) s =
      match lead m s with
      | (.ok a, s') => recorded (accts a) s'
      | (.error _, _) => [] := by
  rw [recorded, lead_bind]
  obtain ⟨_ | _, _⟩ := lead m s <;> rfl

theorem recorded_followed (acct : ExceptT ε (StateM σ) (List Act)) (m : ExceptT ε (StateM σ) α)
    (rest : α → ExceptT ε (StateM σ) (List Act)) (s : σ) :
    recorded (followed acct m rest) s =
      recorded acct s ++
        match lead m s with
        | (.ok a, s') => recorded (rest a) s'
        | (.error _, _) => [] :=
  rfl

variable [HasTrace σ]

/-- Whatever an operation reads of the source and puts in files is on the account, and keys are
written by those who drew them. -/
structure Accounts (acct : ExceptT ε (StateM σ) (List Act)) (m : ExceptT ε (StateM σ) α) :
    Prop where
  explains : ∀ s, Explains (trace s) (recorded acct s) (trace (lead m s).2)
  writesOwn : ∀ s known, WritesOwn known (recorded acct s)

namespace Accounts

variable {acct : ExceptT ε (StateM σ) (List Act)} {m : ExceptT ε (StateM σ) α}

theorem of_recorded_eq_nil (hacct : ∀ s, recorded acct s = []) (hm : Silent m) :
    Accounts acct m := by
  refine ⟨fun s => ?_, fun s known => ?_⟩
  · rw [hacct s, hm s]
    exact .nil (trace s)
  · rw [hacct s]
    trivial

theorem of_silent (hm : Silent m) : Accounts (pure []) m :=
  of_recorded_eq_nil (fun _ => rfl) hm

/-- What leads up to the acts is done by the account too. -/
theorem bind {p : ExceptT ε (StateM σ) β} {accts : β → ExceptT ε (StateM σ) (List Act)}
    {f : β → ExceptT ε (StateM σ) α} (hp : Silent p) (h : ∀ b, Accounts (accts b) (f b)) :
    Accounts (p >>= accts) (p >>= f) := by
  refine ⟨fun s => ?_, fun s known => ?_⟩
  · rw [recorded_bind, lead_bind, ← hp s]
    obtain ⟨_ | b, s'⟩ := lead p s
    · exact .nil _
    · exact (h b).explains s'
  · rw [recorded_bind]
    obtain ⟨_ | b, s'⟩ := lead p s
    · trivial
    · exact (h b).writesOwn s' known

theorem followed {f : α → ExceptT ε (StateM σ) β}
    {accts : α → ExceptT ε (StateM σ) (List Act)} (hm : Accounts acct m)
    (hf : ∀ a, Accounts (accts a) (f a)) : Accounts (followed acct m accts) (m >>= f) := by
  refine ⟨fun s => ?_, fun s known => ?_⟩
  · rw [recorded_followed, lead_bind]
    refine (hm.explains s).append ?_
    obtain ⟨_ | a, s'⟩ := lead m s
    · exact .nil _
    · exact (hf a).explains s'
  · rw [recorded_followed, writesOwn_append]
    refine ⟨hm.writesOwn s known, ?_⟩
    obtain ⟨_ | a, s'⟩ := lead m s
    · trivial
    · exact (hf a).writesOwn s' _

/-- An account of one operation is one of any other that always leaves the same trace. -/
theorem of_trace_eq {m' : ExceptT ε (StateM σ) β} (hm : Accounts acct m)
    (h : ∀ s, trace (lead m' s).2 = trace (lead m s).2) : Accounts acct m' := by
  refine ⟨fun s => ?_, hm.writesOwn⟩
  rw [h s]
  exact hm.explains s

theorem then_silent {f : α → ExceptT ε (StateM σ) β} (hm : Accounts acct m)
    (hf : ∀ a, Silent (f a)) : Accounts acct (m >>= f) := by
  refine hm.of_trace_eq fun s => ?_
  rw [lead_bind]
  obtain ⟨_ | a, s'⟩ := lead m s
  · rfl
  · exact hf a s'

/-- A change that leaves no trace, and of which the account takes no notice, may come first. -/
theorem after_modify (hm : Accounts acct m) {g : σ → σ} (hg : ∀ s, trace (g s) = trace s)
    (hacct : ∀ s, recorded acct (g s) = recorded acct s) :
    Accounts acct (modify g >>= fun _ => m) := by
  refine ⟨fun s => ?_, hm.writesOwn⟩
  rw [lead_bind, lead_modify, ← hg s, ← hacct s]
  exact hm.explains (g s)

theorem tryCatch (hm : Accounts acct m) {g : ε → ExceptT ε (StateM σ) α}
    (hg : ∀ e, Silent (g e)) : Accounts acct (tryCatch m g) := by
  refine hm.of_trace_eq fun s => ?_
  rw [lead_tryCatch]
  obtain ⟨e | a, s'⟩ := lead m s
  · exact hg e s'
  · rfl

end Accounts

/-- The account of calls on files that the session makes itself. -/
def filed : ExceptT ε (StateM σ) (List Act) :=
  return [⟨entropy (← get), .filing⟩]

theorem Drawless.accounts {m : ExceptT ε (StateM σ) α} (h : Drawless m) : Accounts filed m := by
  refine ⟨fun s => ⟨⟨rfl, h s⟩, fun l content _ => .inr ⟨_, .head _, trivial⟩⟩,
    fun s known => ⟨?_, trivial⟩⟩
  intro caller faults stage secret hdeed
  cases hdeed

end

section

variable {α : Type}

theorem recorded_inSession (acct : Action (List Act)) (s : Session) :
    recorded acct.inSession s = recorded acct s.world :=
  recorded_eq (congrArg Prod.fst (lead_inSession acct s))

theorem Accounts.inWorld {acct : Task (List Act)} {t : Task α} (h : Accounts acct t) :
    Accounts acct.inWorld t.inWorld :=
  ⟨fun w => ⟨(h.explains w.ambient).follows, .refl _ w.files⟩, fun w => h.writesOwn w.ambient⟩

theorem Accounts.inCustody {acct : Action (List Act)} {a : Action α} (h : Accounts acct a) :
    Accounts acct.inCustody a.inCustody :=
  ⟨fun c => h.explains c.world, fun c => h.writesOwn c.world⟩

theorem Accounts.inSession {acct : Action (List Act)} {a : Action α} (h : Accounts acct a) :
    Accounts acct.inSession a.inSession := by
  refine ⟨fun s => ?_, fun s => ?_⟩
  · rw [recorded_inSession]
    exact h.explains s.world
  · rw [recorded_inSession]
    exact h.writesOwn s.world

theorem Accounts.task_inSession {acct : Task (List Act)} {t : Task α} (h : Accounts acct t) :
    Accounts acct.inSession t.inSession :=
  h.inWorld.inSession

theorem Accounts.perform {acct : Action (List Act)} {a : Action α} (h : Accounts acct a) :
    Accounts (CommandLine.perform acct) (CommandLine.perform a) :=
  ⟨fun t => h.explains t.world, fun t => h.writesOwn t.world⟩

theorem Accounts.observe {acct : Work (List Act)} {w : Work α} (h : Accounts acct w) :
    Accounts acct w.observe :=
  ⟨h.explains, h.writesOwn⟩

end

end Strongbox
