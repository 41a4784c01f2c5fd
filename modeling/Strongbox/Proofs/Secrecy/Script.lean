import Strongbox.Proofs.Secrecy.Properties
import Strongbox.Session.Stores

/-! # Scripts show no secret

A script opens key files, makes handlers and uses them. What can be seen of it are the errors that
its steps raise, the failures in its outcomes, the texts that views are shown by, and the log. Two
executions that differ in keys, vectors, plaintexts, plain values and envelopes only, and in which
the same checks fail, look the same. -/

namespace Strongbox

namespace Script

/-- The ways in which a handler is given a value. -/
inductive Use
  | convert (c : Conversion)
  | attempt (c : Conversion)
  | storeAttribute
  | restoreAttribute

/-- What becomes of a value that is used so. -/
def Use.conversion : Use → Conversion
  | convert c | attempt c => c
  | storeAttribute => .encryptText
  | restoreAttribute => .decryptText

/-- Stores and handlers are referred to by the order in which they were made. -/
inductive Step
  | readKey (path : String) (fatal : Bool) (faults : KeyFile.Faults)
  | makeStore (path : Path) (fatal : Bool)
  | load (store : Nat) (faults : KeyFile.Faults)
  | openHandler (store : Nat) (marker : String) (faults : KeyFile.Faults)
  | makeHandler (cipher : Cipher) (marker : String)
  | use (handler : Nat) (u : Use) (v : Value)
  | decryptProperties (handler : Nat) (sources : List Source)
  | viewProperties (handler : Nat) (sources : List Source)

/-- What a step that raises nothing lets be seen. The values that it returns are not among it. -/
inductive Exhibit
  | nothing
  | outcome (failure : Option Failure)
  | text (s : String)

structure State where
  stores : List KeyStore
  handlers : List Handler
  world : World

abbrev Course := ExceptT Abort (StateM State)

variable {α β : Type}

def inScript (a : Action α) : Course α :=
  ExceptT.mk fun s =>
    let (result, world) := StateT.run (ExceptT.run a) s.world
    (result, { s with world })

/-- An action on one of the stores. -/
def atStore (i : Nat) (a : StoreAction α) : Course α := do
  match (← get).stores[i]? with
  | none => throw (.misuse .incapable)
  | some store => ExceptT.mk fun s =>
    let (result, c) := StateT.run (ExceptT.run a) { store, world := s.world }
    (result, { s with stores := s.stores.set i c.store, world := c.world })

def withHandler (i : Nat) (f : Handler → Task Exhibit) : Course Exhibit := do
  match (← get).handlers[i]? with
  | none => throw (.misuse .incapable)
  | some h => inScript (f h).inWorld

def Use.task (h : Handler) (v : Value) : Use → Task Exhibit
  | convert c => do
    let _ ← h.convert c v
    return .nothing
  | attempt c => return .outcome (← h.attempt c v).failure
  | storeAttribute => do
    let _ ← Attribute.store h v
    return .nothing
  | restoreAttribute => do
    let _ ← Attribute.restore h v
    return .nothing

def act : Step → Course Exhibit
  | .readKey path fatal faults => do
    let _ ← inScript (Session.readKeyFile path fatal faults)
    return .nothing
  | .makeStore path fatal => do
    let store ← inScript (KeyStore.make path fatal)
    modify fun s => { s with stores := s.stores ++ [store] }
    return .nothing
  | .load i faults => do
    let _ ← atStore i (KeyStore.load faults)
    return .nothing
  | .openHandler i marker faults => do
    let h ← atStore i (KeyStore.handler marker faults)
    modify fun s => { s with handlers := s.handlers ++ [h] }
    return .nothing
  | .makeHandler cipher marker => do
    let h ← inScript (Handler.make cipher marker).inWorld
    modify fun s => { s with handlers := s.handlers ++ [h] }
    return .nothing
  | .use i u v => withHandler i fun h => u.task h v
  | .decryptProperties i sources => withHandler i fun h => do
    let _ ← Properties.decrypt h sources
    return .nothing
  | .viewProperties i sources => withHandler i fun h =>
    return .text (← PropertyView.build h sources).summary

/-- What each step lets be seen; one that raises an error does not stop the script. -/
def run : List Step → State → List (Except Abort Exhibit) × State
  | [], s => ([], s)
  | x :: rest, s =>
    let (result, s) := perform (act x) s
    let (results, s) := run rest s
    (result :: results, s)

/-! ## Executions that are alike -/

structure State.Alike (s s' : State) : Prop where
  stores : List.Forall₂ KeyStore.Alike s.stores s'.stores
  handlers : List.Forall₂ Handler.Alike s.handlers s'.handlers
  world : s.world.Alike s'.world

/-- The same step with other secrets, where `Q` is what arguments have in common. -/
inductive Step.Alike (Q : Handler → Handler → Conversion → Value → Value → Prop) (s s' : State) :
    Step → Step → Prop
  | readKey (path : String) (fatal : Bool) {faults faults' : KeyFile.Faults} :
      faults.Alike faults' →
      Alike Q s s' (.readKey path fatal faults) (.readKey path fatal faults')
  | makeStore (path : Path) (fatal : Bool) :
      Alike Q s s' (.makeStore path fatal) (.makeStore path fatal)
  | load (i : Nat) {faults faults' : KeyFile.Faults} : faults.Alike faults' →
      Alike Q s s' (.load i faults) (.load i faults')
  | openHandler (i : Nat) (marker : String) {faults faults' : KeyFile.Faults} :
      faults.Alike faults' →
      Alike Q s s' (.openHandler i marker faults) (.openHandler i marker faults')
  | makeHandler {c c' : Cipher} (marker : String) : c.fault = c'.fault →
      Alike Q s s' (.makeHandler c marker) (.makeHandler c' marker)
  | use (i : Nat) (u : Use) {v v' : Value} :
      (∀ h h', s.handlers[i]? = some h → s'.handlers[i]? = some h' → Q h h' u.conversion v v') →
      Alike Q s s' (.use i u v) (.use i u v')
  | decryptProperties (i : Nat) {sources sources' : List Source} :
      (∀ h h', s.handlers[i]? = some h → s'.handlers[i]? = some h' →
        Properties.Alike Q h h' sources sources') →
      Alike Q s s' (.decryptProperties i sources) (.decryptProperties i sources')
  | viewProperties (i : Nat) {sources sources' : List Source} :
      (∀ h h', s.handlers[i]? = some h → s'.handlers[i]? = some h' →
        Properties.Alike Q h h' sources sources') →
      Alike Q s s' (.viewProperties i sources) (.viewProperties i sources')

/-- Executions that are alike step by step, each step in the states that the steps before it left. -/
inductive RunsAlike (Q : Handler → Handler → Conversion → Value → Value → Prop) :
    State → State → List Step → List Step → Prop
  | nil (s s' : State) : RunsAlike Q s s' [] []
  | cons {s s' : State} {x x' : Step} {rest rest' : List Step} : Step.Alike Q s s' x x' →
      RunsAlike Q (perform (act x) s).2 (perform (act x') s').2 rest rest' →
      RunsAlike Q s s' (x :: rest) (x' :: rest')

/-! ## Steps -/

section

variable {R : α → β → Prop} {s s' : State}

theorem getElem?_of_forall₂ {as : List α} {bs : List β} (h : List.Forall₂ R as bs) (i : Nat) :
    (as[i]? = none ∧ bs[i]? = none) ∨ ∃ a b, as[i]? = some a ∧ bs[i]? = some b ∧ R a b := by
  induction h generalizing i with
  | nil => exact .inl ⟨rfl, rfl⟩
  | @cons a b as bs hab _ ih =>
      cases i with
      | zero => exact .inr ⟨a, b, rfl, rfl, hab⟩
      | succ i => exact ih i

theorem forall₂_set {as : List α} {bs : List β} (h : List.Forall₂ R as bs) (i : Nat) {a : α} {b : β}
    (hab : R a b) : List.Forall₂ R (as.set i a) (bs.set i b) := by
  induction h generalizing i with
  | nil => exact .nil
  | cons hcd hrest ih =>
      cases i with
      | zero => exact .cons hab hrest
      | succ i => exact .cons hcd (ih i)

theorem forall₂_concat {as : List α} {bs : List β} (h : List.Forall₂ R as bs) {a : α} {b : β}
    (hab : R a b) : List.Forall₂ R (as ++ [a]) (bs ++ [b]) :=
  List.rel_append h (.cons hab .nil)

theorem inScript_paired {a : Action α} {a' : Action β} (h : Paired World.Alike R a a') :
    Paired State.Alike R (inScript a) (inScript a') :=
  fun s s' hs => ⟨(h s.world s'.world hs.world).1, hs.stores, hs.handlers,
    (h s.world s'.world hs.world).2⟩

theorem atStore_paired (i : Nat) {a : StoreAction α} {a' : StoreAction β}
    (h : Paired Custody.Alike R a a') : Paired State.Alike R (atStore i a) (atStore i a') := by
  refine Paired.get_bind fun s s' hs => ?_
  obtain ⟨hnone, hnone'⟩ | ⟨store, store', hstore, hstore', halike⟩ := getElem?_of_forall₂ hs.stores i
  · rw [hnone, hnone']
    exact .throw _
  · rw [hstore, hstore']
    intro t t' ht
    obtain ⟨hr, hc⟩ := h ⟨store, t.world⟩ ⟨store', t'.world⟩ ⟨halike, ht.world⟩
    exact ⟨hr, forall₂_set ht.stores i hc.store, ht.handlers, hc.world⟩

/-- What is done with a handler matches if it does with the two that are there. -/
theorem withHandler_matching (hs : s.Alike s') (i : Nat) {f f' : Handler → Task Exhibit}
    (hf : ∀ h h', s.handlers[i]? = some h → s'.handlers[i]? = some h' → h.Alike h' →
      Paired Ambient.Alike (· = ·) (f h) (f' h')) :
    Matching (· = ·) (perform (withHandler i f) s).1 (perform (withHandler i f') s').1 ∧
      (perform (withHandler i f) s).2.Alike (perform (withHandler i f') s').2 := by
  have hperform : ∀ (f : Handler → Task Exhibit) (s : State), perform (withHandler i f) s =
      perform (match s.handlers[i]? with
        | none => throw (.misuse .incapable)
        | some h => inScript (f h).inWorld : Course Exhibit) s := fun _ _ => rfl
  rw [hperform f s, hperform f' s']
  obtain ⟨hnone, hnone'⟩ | ⟨h, h', hh, hh', halike⟩ := getElem?_of_forall₂ hs.handlers i
  · rw [hnone, hnone']
    exact ⟨.error _, hs⟩
  · rw [hh, hh']
    exact inScript_paired (hf h h' hh hh' halike).inWorld s s' hs

end

theorem readKeyFile_paired (path : String) (fatal : Bool) {faults faults' : KeyFile.Faults}
    (hf : faults.Alike faults') :
    Paired World.Alike SameLength (Session.readKeyFile path fatal faults)
      (Session.readKeyFile path fatal faults') := by
  rw [Session.readKeyFile, Session.readKeyFile]
  split
  · exact KeyFile.ensureOrExit_paired _ hf
  · exact KeyFile.ensure_paired _ hf

theorem Use.task_paired (u : Use) {h h' : Handler} {v v' : Value} (hh : h.Alike h')
    (hm : Measured h h' u.conversion v v') :
    Paired Ambient.Alike (· = ·) (u.task h v) (u.task h' v') := by
  cases u with
  | convert c => exact (Handler.convert_paired hh hm).bind fun _ _ _ => .pure rfl
  | attempt c => exact (Handler.attempt_paired hh hm).bind fun _ _ ho => .pure (congrArg _ ho)
  | storeAttribute => exact (Attribute.store_paired hh hm.alike).bind fun _ _ _ => .pure rfl
  | restoreAttribute => exact (Attribute.restore_paired hh hm).bind fun _ _ _ => .pure rfl

/-- One step looks the same and leaves states that are alike. -/
theorem act_matching {s s' : State} (hs : s.Alike s') {x x' : Step}
    (hx : Step.Alike Measured s s' x x') :
    Matching (· = ·) (perform (act x) s).1 (perform (act x') s').1 ∧
      (perform (act x) s).2.Alike (perform (act x') s').2 := by
  cases hx with
  | readKey path fatal hf =>
      exact (inScript_paired (readKeyFile_paired path fatal hf)).bind (fun _ _ _ => .pure rfl) s s' hs
  | makeStore path fatal =>
      refine (inScript_paired (KeyStore.make_paired path fatal)).bind (fun store store' hstore => ?_)
        s s' hs
      refine Paired.bind (Paired.modify fun t t' ht => ?_) fun _ _ _ => .pure rfl
      exact ⟨forall₂_concat ht.stores hstore, ht.handlers, ht.world⟩
  | load i hf =>
      exact (atStore_paired i (KeyStore.load_paired hf)).bind (fun _ _ _ => .pure rfl) s s' hs
  | openHandler i marker hf =>
      refine (atStore_paired i (KeyStore.handler_paired hf marker)).bind (fun h h' hh => ?_) s s' hs
      refine Paired.bind (Paired.modify fun t t' ht => ?_) fun _ _ _ => .pure rfl
      exact ⟨ht.stores, forall₂_concat ht.handlers hh, ht.world⟩
  | makeHandler marker hc =>
      refine (inScript_paired (Handler.make_paired hc marker).inWorld).bind (fun h h' hh => ?_) s s' hs
      refine Paired.bind (Paired.modify fun t t' ht => ?_) fun _ _ _ => .pure rfl
      exact ⟨ht.stores, forall₂_concat ht.handlers hh, ht.world⟩
  | use i u hq =>
      exact withHandler_matching hs i fun h h' hh hh' halike => u.task_paired halike (hq h h' hh hh')
  | decryptProperties i hq =>
      exact withHandler_matching hs i fun h h' hh hh' halike =>
        (Properties.decrypt_paired halike (hq h h' hh hh')).bind fun _ _ _ => .pure rfl
  | viewProperties i hq =>
      exact withHandler_matching hs i fun h h' hh hh' halike =>
        (PropertyView.build_paired halike (hq h h' hh hh')).bind fun _ _ hp =>
          .pure (congrArg Exhibit.text hp)

/-! ## Whole scripts -/

theorem run_alike {s s' : State} {steps steps' : List Step}
    (hsteps : RunsAlike Measured s s' steps steps') (hs : s.Alike s') :
    (run steps s).1 = (run steps' s').1 ∧ (run steps s).2.Alike (run steps' s').2 := by
  induction hsteps with
  | nil s s' => exact ⟨rfl, hs⟩
  | cons hx _ ih =>
      obtain ⟨hresult, hleft⟩ := act_matching hs hx
      obtain ⟨hresults, hend⟩ := ih hleft
      exact ⟨congrArg₂ List.cons hresult.eq_of_matching hresults, hend⟩

/-- Two executions of a script that differ in their secrets, and agree in which checks fail, show the
same errors, failures and texts and write the same log. -/
theorem run_shows_no_secret (s s' : State) (steps steps' : List Step) (hs : s.Alike s')
    (hsteps : RunsAlike Measured s s' steps steps') :
    (run steps s).1 = (run steps' s').1 ∧
      (run steps s).2.world.ambient.log = (run steps' s').2.world.ambient.log := by
  obtain ⟨hshown, hend⟩ := run_alike hsteps hs
  exact ⟨hshown, hend.world.ambient⟩

/-- A text is encrypted, a marked one is too short, and a key is read, under two keys. -/
theorem run_shows_no_secret_two_keys :
    let scene (octet : UInt8) : State :=
      { stores := []
        handlers := [{ cipher := { key := ⟨List.replicate 32 octet, by simp⟩ }, marker := "$" }]
        world :=
          { ambient := ⟨.ofBytes [octet], .ofBytes [], []⟩
            files := ⟨[(["k"], .file 0o400 (List.replicate 32 octet))], []⟩ } }
    let script (plain encoded : String) : List Step :=
      [.use 0 (.convert .encryptText) (.text plain), .use 0 (.attempt .decryptText) (.text encoded),
        .readKey "k" true {}]
    (run (script "hush" "$AAAA") (scene 0)).1 = (run (script "shhh" "$////") (scene 1)).1 ∧
      (run (script "hush" "$AAAA") (scene 0)).2.world.ambient.log =
        (run (script "shhh" "$////") (scene 1)).2.world.ambient.log := by
  intro scene script
  have hscene : (scene 0).Alike (scene 1) :=
    ⟨.nil, .cons ⟨rfl, rfl⟩ .nil, rfl, rfl⟩
  refine run_shows_no_secret _ _ _ _ hscene (.cons (.use 0 _ fun h h' hh hh' => ?_)
    (.cons (.use 0 _ fun h h' hh hh' => ?_) (.cons (.readKey "k" true ⟨rfl, rfl⟩) (.nil _ _))))
  · exact { alike := .text (by decide), checks := rfl, size := nofun }
  · obtain rfl := Option.some.inj hh
    obtain rfl := Option.some.inj hh'
    exact { alike := .text (by decide), checks := by decide, size := fun _ _ _ => by decide }

/-- Equal sizes of the arguments are not enough: padding beyond need and characters of several octets
leave texts of one size that stand for envelopes of different sizes, and a refusal tells these. -/
theorem run_tells_sizes :
    let h : Handler :=
      { cipher := { key := ⟨List.replicate 32 0, by decide⟩ }, marker := Handler.standardMarker }
    let s : State :=
      { stores := [], handlers := [h], world := ⟨⟨.ofBytes [], .ofBytes [], []⟩, .empty []⟩ }
    let script (marked data : String) : List Step :=
      [.use 0 (.convert .decryptText) (.text marked), .use 0 (.convert .decryptBytes) (.text data)]
    let padded := script (h.marker ++ "AAAA====") "é"
    let plain := script (h.marker ++ "AAAAAAAA") "ab"
    RunsAlike Checked s s padded plain ∧
      (run padded s).1 = [.error (.failure (.tooShort 3)), .error (.failure (.tooShort 1))] ∧
      (run plain s).1 = [.error (.failure (.tooShort 6)), .error (.failure (.tooShort 2))] ∧
      (Failure.tooShort 3).message ≠ (Failure.tooShort 6).message ∧
      (Failure.tooShort 1).message ≠ (Failure.tooShort 2).message := by
  refine ⟨.cons (.use 0 _ fun g g' hg hg' => ?_) (.cons (.use 0 _ fun g g' hg hg' => ?_) (.nil _ _)),
    by rfl, by rfl, by decide, by decide⟩
  · obtain rfl := Option.some.inj hg
    obtain rfl := Option.some.inj hg'
    exact ⟨.text (by decide), by decide⟩
  · obtain rfl := Option.some.inj hg
    obtain rfl := Option.some.inj hg'
    exact ⟨.text (by decide), by decide⟩

end Script

end Strongbox
