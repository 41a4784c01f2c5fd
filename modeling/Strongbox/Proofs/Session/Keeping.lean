import Strongbox.Proofs.KeyStore
import Strongbox.Session.Stores

/-! # A store and a lazy handler over whole runs

Calls on one store and on a lazy handler for it, in any order, while the files are changed from
outside and callers overwrite what they hold. What has been answered so far determines what the
store and the lazy handler keep; from then on neither of them depends on anything else. -/

namespace Strongbox.Session

/-! ## Runs -/

/-- A call on the store or the lazy handler, or something that happens between calls. -/
inductive Event
  /-- A load, or a load of which the caller gets a copy of its own. -/
  | ask (copy : Bool) (faults : KeyFile.Faults)
  | handler (faults : KeyFile.Faults)
  | force (faults : KeyFile.Faults)
  /-- The files are changed, and callers overwrite what they hold under their names. -/
  | disturb (files : FileTree) (names : List (String × Held))

namespace Event

def IsCall : Event → Prop
  | disturb _ _ => False
  | _ => True

def IsForce : Event → Prop
  | force _ => True
  | _ => False

/-- The calls that make a handler if it is not there. -/
def IsBuild : Event → Prop
  | handler _ | force _ => True
  | _ => False

theorem IsBuild.isCall {e : Event} (h : e.IsBuild) : e.IsCall := by
  cases e with
  | handler | force => trivial
  | ask | disturb => exact h.elim

/-- The faults that the call meets. -/
def faults : Event → KeyFile.Faults
  | ask _ faults | handler faults | force faults => faults
  | disturb _ _ => {}

end Event

/-- What a call answers. -/
inductive Answer
  | value (v : Value)
  | handler (n : Nat)
  | nothing

/-- The key as a caller sees it: the octets themselves or a buffer of its own. -/
def keyValue (copy : Bool) (key : Bytes) : Value :=
  if copy then buffer key else .ofBytes key

def act (store lazy : Nat) : Event → Work Answer
  | .ask copy faults => do
    let (v, _) ← askStore store faults (if copy then .copy else .load)
    return .value v
  | .handler faults => return .handler (← handlerOfStore store faults)
  | .force faults => return .handler (← forceLazy lazy faults)
  | .disturb files names => do
    modify fun s => { s with names, world := { s.world with files } }
    return .nothing

/-- The events with what they were answered, and the session after them. -/
def follow (store lazy : Nat) : List Event → Session → List (Event × Except Stop Answer) × Session
  | [], s => ([], s)
  | e :: rest, s =>
    let (answer, s) := lead (act store lazy e) s
    let (answers, s) := follow store lazy rest s
    ((e, answer) :: answers, s)

/-- The key that a store keeps, and the handler that a lazy handler keeps. -/
def keyOf (s : Session) (i : Nat) : Option Bytes :=
  s.stores[i]?.bind KeyStore.key

def builtOf (s : Session) (j : Nat) : Option Nat :=
  s.lazies[j]?.bind fun l => l.handler.built

/-- The handler of this number has a sound cipher with this key, and the usual marker. -/
def Keyed (s : Session) (n : Nat) (key : Bytes) : Prop :=
  ∃ c cipher, s.handlers[n]? = some { cipher := some c, marker := Handler.standardMarker } ∧
    s.ciphers[c]? = some cipher ∧ cipher.key.bytes = key ∧ cipher.fault = none

/-! ## One call -/

variable {s : Session} {i j : Nat} {store : KeyStore}

/-- The session after something has been done at a store. -/
def keeping (s : Session) (i : Nat) (store : KeyStore) (w : World) : Session :=
  { s with stores := s.stores.set i store, world := w }

theorem lead_entry {α : Type} {entries : Session → List α} {a : α} (h : (entries s)[i]? = some a) :
    lead (entry entries i) s = (.ok a, s) := by
  rw [entry, lead_bind, lead_get]
  simp [h]

theorem lead_atStore {α : Type} (h : s.stores[i]? = some store) (a : StoreAction α) :
    lead (atStore i a) s =
      ((lead a ⟨store, s.world⟩).1.mapError .abort,
        s.keeping i (lead a ⟨store, s.world⟩).2.store (lead a ⟨store, s.world⟩).2.world) := by
  rw [atStore, storeAt, lead_bind, lead_entry h]
  rfl

/-- What a load comes to in a session. -/
theorem lead_atStore_load (faults : KeyFile.Faults) (h : s.stores[i]? = some store) :
    lead (atStore i (KeyStore.load faults)) s =
      ((store.obtain faults s.world).1.mapError .abort,
        s.keeping i (store.after (store.obtain faults s.world).1)
          (store.obtain faults s.world).2) := by
  rw [lead_atStore h, KeyStore.lead_load]

theorem set_self {α : Type} {as : List α} {a : α} (h : as[i]? = some a) : as.set i a = as := by
  obtain ⟨hlt, rfl⟩ := List.getElem?_eq_some_iff.mp h
  exact List.set_getElem_self hlt

theorem keeping_self (h : s.stores[i]? = some store) (w : World) :
    s.keeping i store w = { s with world := w } := by
  rw [keeping, set_self h]

/-- The session after a handler has been made for a key that a store has got. -/
def supplied (s : Session) (i : Nat) (store : KeyStore) (cipher : Cipher) (w : World) : Session :=
  { s.keeping i store (w.record .debug "CryptoHandler()") with
    ciphers := s.ciphers ++ [cipher]
    handlers := s.handlers ++
      [{ cipher := some s.ciphers.length, marker := Handler.standardMarker }] }

/-- How the making of a handler for a store ends. -/
inductive Supplies (i : Nat) (store : KeyStore) (faults : KeyFile.Faults) (s : Session) :
    Except Stop Nat → Session → Prop
  | failed {a : Abort} {w : World} : store.obtain faults s.world = (.error a, w) →
      Supplies i store faults s (.error (.abort a)) { s with world := w }
  | refused {b : Bytes} {w : World} : store.obtain faults s.world = (.ok b, w) →
      b.length ≠ 32 →
      Supplies i store faults s (.error (.abort (.failure (.keyLength b.length))))
        (s.keeping i { store with key := some b } w)
  | made {b : Bytes} {w : World} {cipher : Cipher} : store.obtain faults s.world = (.ok b, w) →
      b.length = 32 → cipher.key.bytes = b → cipher.fault = none →
      Supplies i store faults s (.ok s.handlers.length)
        (s.supplied i { store with key := some b } cipher w)

theorem handlerOfStore_supplies (faults : KeyFile.Faults) (h : s.stores[i]? = some store) :
    Supplies i store faults s (lead (handlerOfStore i faults) s).1
      (lead (handlerOfStore i faults) s).2 := by
  rw [handlerOfStore, lead_bind, lead_atStore h]
  cases hobtain : store.obtain faults s.world with
  | mk r w =>
      cases r with
      | error a =>
          rw [KeyStore.lead_handler_of_error hobtain]
          have hkept := Supplies.failed (i := i) hobtain
          rwa [← keeping_self h w] at hkept
      | ok b =>
          by_cases hlen : b.length = 32
          · rw [KeyStore.lead_handler_of_length hobtain hlen]
            exact .made hobtain hlen rfl rfl
          · rw [KeyStore.lead_handler_of_length_ne hobtain hlen]
            exact .refused hobtain hlen

theorem lead_forceLazy_built (faults : KeyFile.Faults) {n : Nat}
    (h : s.lazies[j]? = some { store := some i, handler := ⟨some n⟩ }) :
    lead (forceLazy j faults) s = (.ok n, s) := by
  rw [forceLazy, lead_bind, lead_entry h]
  simp only [Lazily.get, pure_bind, lead_bind, lead_modify, lead_pure]
  rw [set_self h]

theorem lead_forceLazy_unbuilt (faults : KeyFile.Faults)
    (h : s.lazies[j]? = some { store := some i, handler := {} }) :
    lead (forceLazy j faults) s =
      match lead (handlerOfStore i faults) s with
      | (.ok n, s') =>
        (.ok n, { s' with lazies := s'.lazies.set j { store := some i, handler := ⟨some n⟩ } })
      | (.error stop, s') => (.error stop, s') := by
  rw [forceLazy, lead_bind, lead_entry h]
  simp only [Lazily.get, forceLazy.build, lead_bind]
  obtain ⟨r, s'⟩ := lead (handlerOfStore i faults) s
  cases r <;> rfl

/-! ## What one event leads to -/

/-- A store and a lazy handler for it, with the key and the handler that they keep. -/
structure Rests (i j : Nat) (store : KeyStore) (s : Session) (key : Option Bytes)
    (built : Option Nat) : Prop where
  store : s.stores[i]? = some { store with key }
  lazy : s.lazies[j]? = some { store := some i, handler := ⟨built⟩ }

/-- Ciphers and handlers are only ever added. -/
structure Adds (s s' : Session) : Prop where
  ciphers : s.ciphers <+: s'.ciphers
  handlers : s.handlers <+: s'.handlers

/-- What an event leads to: the answer, the session after it, and what is kept then. -/
inductive Reaction (store : KeyStore) (s : Session) (key : Option Bytes) (built : Option Nat) :
    Event → Except Stop Answer → Session → Option Bytes → Option Nat → Prop
  | disturbed {files : FileTree} {names : List (String × Held)} :
      Reaction store s key built (.disturb files names) (.ok .nothing)
        { s with names, world := { s.world with files } } key built
  | failed {e : Event} {a : Abort} {w : World} : e.IsCall → (e.IsForce → built = none) →
      key = none → lead (store.fetch e.faults) s.world = (.error a, w) →
      Reaction store s key built e (.error (.abort a)) { s with world := w } none built
  | told {copy : Bool} {faults : KeyFile.Faults} {b : Bytes} {s' : Session} :
      KeyStore.obtain { store with key } faults s.world = (.ok b, s'.world) →
      Reaction store s key built (.ask copy faults) (.ok (.value (keyValue copy b))) s' (some b)
        built
  | refused {e : Event} {b : Bytes} {s' : Session} : e.IsBuild → (e.IsForce → built = none) →
      KeyStore.obtain { store with key } e.faults s.world = (.ok b, s'.world) → b.length ≠ 32 →
      Reaction store s key built e (.error (.abort (.failure (.keyLength b.length)))) s' (some b)
        built
  | made {faults : KeyFile.Faults} {b : Bytes} {w : World} {n : Nat} {s' : Session} :
      KeyStore.obtain { store with key } faults s.world = (.ok b, w) → b.length = 32 →
      Keyed s' n b → s'.world.files = w.files →
      Reaction store s key built (.handler faults) (.ok (.handler n)) s' (some b) built
  | forced {faults : KeyFile.Faults} {b : Bytes} {w : World} {n : Nat} {s' : Session} :
      built = none → KeyStore.obtain { store with key } faults s.world = (.ok b, w) →
      b.length = 32 → Keyed s' n b → s'.world.files = w.files →
      Reaction store s key built (.force faults) (.ok (.handler n)) s' (some b) (some n)
  | again {faults : KeyFile.Faults} {n : Nat} : built = some n →
      Reaction store s key built (.force faults) (.ok (.handler n)) s key built

variable {key : Option Bytes} {built : Option Nat}

namespace Adds

variable {s' : Session}

theorem of_eq (hciphers : s'.ciphers = s.ciphers) (hhandlers : s'.handlers = s.handlers) :
    Adds s s' :=
  ⟨hciphers ▸ List.prefix_rfl, hhandlers ▸ List.prefix_rfl⟩

theorem getElem?_of_prefix {α : Type} {as as' : List α} (h : as <+: as') {n : Nat} {a : α}
    (ha : as[n]? = some a) : as'[n]? = some a := by
  obtain ⟨rest, rfl⟩ := h
  rw [List.getElem?_append_left (List.getElem?_eq_some_iff.mp ha).1, ha]

/-- A handler keeps its key. -/
theorem keyed (h : Adds s s') {n : Nat} {b : Bytes} (hn : Keyed s n b) : Keyed s' n b := by
  obtain ⟨c, cipher, hhandler, hcipher, hkey, hfault⟩ := hn
  exact ⟨c, cipher, getElem?_of_prefix h.handlers hhandler, getElem?_of_prefix h.ciphers hcipher,
    hkey, hfault⟩

end Adds

theorem keyed_supplied {b : Bytes} {cipher : Cipher} {w : World} (hkey : cipher.key.bytes = b)
    (hfault : cipher.fault = none) :
    Keyed (s.supplied i store cipher w) s.handlers.length b := by
  refine ⟨s.ciphers.length, cipher, ?_, ?_, hkey, hfault⟩
  · simp [supplied]
  · simp [supplied]

namespace Rests

theorem keeping (h : Rests i j store s key built) (b : Bytes) (w : World) :
    Rests i j store (s.keeping i { store with key := some b } w) (some b) built := by
  refine ⟨?_, h.lazy⟩
  have hlt : i < s.stores.length := (List.getElem?_eq_some_iff.mp h.store).1
  simp [Session.keeping, hlt]

theorem supplied (h : Rests i j store s key built) (b : Bytes) (cipher : Cipher) (w : World) :
    Rests i j store (s.supplied i { store with key := some b } cipher w) (some b) built :=
  ⟨(h.keeping b w).store, h.lazy⟩

end Rests

/-- The event's answer and the session after it fit what is kept. -/
def Reacts (i j : Nat) (store : KeyStore) (s : Session) (key : Option Bytes) (built : Option Nat)
    (e : Event) (answer : Except Stop Answer) (s' : Session) : Prop :=
  ∃ key' built', Reaction store s key built e answer s' key' built' ∧
    Rests i j store s' key' built' ∧ Adds s s'

/-- A key that cannot be got leaves all as it was. -/
theorem reacts_of_error (h : Rests i j store s key built) (e : Event) (hcall : e.IsCall)
    (hbuilt : e.IsForce → built = none) {a : Abort} {w : World}
    (hobtain : KeyStore.obtain { store with key } e.faults s.world = (.error a, w)) :
    Reacts i j store s key built e (.error (.abort a)) { s with world := w } := by
  obtain ⟨hkey, hfetch⟩ := KeyStore.fetch_of_obtain_error hobtain
  obtain rfl : key = none := hkey
  exact ⟨none, built, .failed hcall hbuilt rfl hfetch, ⟨h.store, h.lazy⟩, .of_eq rfl rfl⟩

theorem lead_ask_of_error {copy : Bool} {faults : KeyFile.Faults} {a : Abort} {w : World}
    (h : s.stores[i]? = some store) (hobtain : store.obtain faults s.world = (.error a, w)) :
    lead (act i j (.ask copy faults)) s = (.error (.abort a), { s with world := w }) := by
  have hload := lead_atStore_load faults h
  rw [hobtain] at hload
  rw [← keeping_self h w]
  cases copy <;> simp [act, askStore, hload, Except.mapError, Except.map, KeyStore.after]

theorem lead_ask_of_ok {copy : Bool} {faults : KeyFile.Faults} {b : Bytes} {w : World}
    (h : s.stores[i]? = some store) (hobtain : store.obtain faults s.world = (.ok b, w)) :
    ∃ made, lead (act i j (.ask copy faults)) s =
      (.ok (.value (keyValue copy b)),
        { s.keeping i { store with key := some b } w with made }) := by
  have hload := lead_atStore_load faults h
  rw [hobtain] at hload
  cases copy with
  | false =>
      refine ⟨s.made, ?_⟩
      simp [act, askStore, hload, Except.mapError, Except.map, KeyStore.after, keyValue, keeping]
  | true =>
      refine ⟨s.made + 1, ?_⟩
      simp [act, askStore, askStore.fresh, newValue, hload, Except.mapError, Except.map,
        KeyStore.after, keyValue, keeping]

theorem ask_reacts (h : Rests i j store s key built) (copy : Bool) (faults : KeyFile.Faults) :
    Reacts i j store s key built (.ask copy faults) (lead (act i j (.ask copy faults)) s).1
      (lead (act i j (.ask copy faults)) s).2 := by
  cases hobtain : KeyStore.obtain { store with key } faults s.world with
  | mk r w =>
      cases r with
      | error a =>
          rw [lead_ask_of_error h.store hobtain]
          exact reacts_of_error h (.ask copy faults) trivial nofun hobtain
      | ok b =>
          obtain ⟨made, hled⟩ := lead_ask_of_ok h.store hobtain
          rw [hled]
          exact ⟨some b, built, .told hobtain, ⟨(h.keeping b w).store, h.lazy⟩, .of_eq rfl rfl⟩

theorem handler_reacts (h : Rests i j store s key built) (faults : KeyFile.Faults) :
    Reacts i j store s key built (.handler faults) (lead (act i j (.handler faults)) s).1
      (lead (act i j (.handler faults)) s).2 := by
  have hsupplies := handlerOfStore_supplies faults h.store
  rw [act, bind_pure_comp, lead_map]
  generalize lead (handlerOfStore i faults) s = led at hsupplies
  obtain ⟨r, s'⟩ := led
  cases hsupplies with
  | failed hobtain => exact reacts_of_error h (.handler faults) trivial nofun hobtain
  | @refused b w hobtain hlen =>
      exact ⟨some b, built, .refused trivial nofun hobtain hlen, h.keeping b w, .of_eq rfl rfl⟩
  | @made b w cipher hobtain hlen hkey hfault =>
      exact ⟨some b, built, .made hobtain hlen (keyed_supplied hkey hfault) rfl,
        h.supplied b cipher w, ⟨List.prefix_append _ _, List.prefix_append _ _⟩⟩

theorem force_reacts (h : Rests i j store s key built) (faults : KeyFile.Faults) :
    Reacts i j store s key built (.force faults) (lead (act i j (.force faults)) s).1
      (lead (act i j (.force faults)) s).2 := by
  rw [act, bind_pure_comp, lead_map]
  cases built with
  | some n =>
      rw [lead_forceLazy_built faults h.lazy]
      exact ⟨key, some n, .again rfl, h, .of_eq rfl rfl⟩
  | none =>
      have hsupplies := handlerOfStore_supplies faults h.store
      rw [lead_forceLazy_unbuilt faults h.lazy]
      generalize lead (handlerOfStore i faults) s = led at hsupplies
      obtain ⟨r, s'⟩ := led
      cases hsupplies with
      | failed hobtain => exact reacts_of_error h (.force faults) trivial (fun _ => rfl) hobtain
      | @refused b w hobtain hlen =>
          exact ⟨some b, none, .refused trivial (fun _ => rfl) hobtain hlen, h.keeping b w,
            .of_eq rfl rfl⟩
      | @made b w cipher hobtain hlen hkey hfault =>
          have hlt : j < s.lazies.length := (List.getElem?_eq_some_iff.mp h.lazy).1
          have hkeyed : Keyed (s.supplied i { store with key := some b } cipher w)
              s.handlers.length b := keyed_supplied hkey hfault
          refine ⟨some b, some s.handlers.length, .forced rfl hobtain hlen hkeyed rfl,
            ⟨(h.supplied b cipher w).store, ?_⟩, ⟨List.prefix_append _ _, List.prefix_append _ _⟩⟩
          simp [keeping, hlt]

theorem act_reacts (h : Rests i j store s key built) (e : Event) :
    Reacts i j store s key built e (lead (act i j e) s).1 (lead (act i j e) s).2 := by
  cases e with
  | ask copy faults => exact ask_reacts h copy faults
  | handler faults => exact handler_reacts h faults
  | force faults => exact force_reacts h faults
  | disturb files names =>
      exact ⟨key, built, .disturbed, ⟨h.store, h.lazy⟩, .of_eq rfl rfl⟩

/-! ## Whole runs -/

/-- A call has failed to load. -/
def FailedToLoad (store : KeyStore) (answer : Except Stop Answer) : Prop :=
  ∃ a, answer = .error (.abort a) ∧ store.LoadFailure a

/-- What is kept fits the answers that have been given. -/
structure Remembers (store : KeyStore) (past : List (Event × Except Stop Answer)) (s : Session)
    (key : Option Bytes) (built : Option Nat) : Prop where
  unloaded : key = none ↔ ∀ r ∈ past, r.1.IsCall → FailedToLoad store r.2
  told : ∀ copy faults b, (.ask copy faults, .ok (.value (keyValue copy b))) ∈ past → key = some b
  unbuilt : built = none ↔ ∀ r ∈ past, r.1.IsForce → r.2.isOk = false
  forced : ∀ faults n, (.force faults, .ok (.handler n)) ∈ past → built = some n
  keyed : ∀ n, built = some n → ∃ b, key = some b ∧ Keyed s n b

theorem Remembers.start (store : KeyStore) (s : Session) : Remembers store [] s none none where
  unloaded := by simp
  told := by simp
  unbuilt := by simp
  forced := by simp
  keyed := by simp

/-! ### What one more event adds -/

theorem keyValue_injective {copy : Bool} {b b' : Bytes} (h : keyValue copy b = keyValue copy b') :
    b = b' := by
  cases copy with
  | false => exact (Value.bytes.inj h).2
  | true => exact (Value.bytes.inj h).2

namespace Reaction

variable {e : Event} {answer : Except Stop Answer} {s' : Session} {key' : Option Bytes}
  {built' : Option Nat}

/-- The key that has been got is kept, and so is the handler that has been built. -/
theorem keeps (h : Reaction store s key built e answer s' key' built') :
    (∀ b, key = some b → key' = some b) ∧ ∀ n, built = some n → built' = some n := by
  have hobtain : ∀ faults b' (w : World),
      KeyStore.obtain { store with key } faults s.world = (.ok b', w) →
      ∀ b, key = some b → some b' = some b := by
    rintro faults b' w hb' b rfl
    exact congrArg some (Except.ok.inj (Prod.mk.inj hb').1).symm
  cases h with
  | disturbed => exact ⟨fun _ hb => hb, fun _ hn => hn⟩
  | failed _ _ hkey _ =>
      exact ⟨fun b hb => (Option.some_ne_none b (hb.symm.trans hkey)).elim, fun _ hn => hn⟩
  | told hb => exact ⟨hobtain _ _ _ hb, fun _ hn => hn⟩
  | refused _ _ hb _ => exact ⟨hobtain _ _ _ hb, fun _ hn => hn⟩
  | made hb _ _ _ => exact ⟨hobtain _ _ _ hb, fun _ hn => hn⟩
  | forced hbuilt hb _ _ _ =>
      exact ⟨hobtain _ _ _ hb, fun n hn => (Option.some_ne_none n (hn.symm.trans hbuilt)).elim⟩
  | again _ => exact ⟨fun _ hb => hb, fun _ hn => hn⟩

/-- The store is left without a key only by a call that failed to load. -/
theorem unloaded_iff (h : Reaction store s key built e answer s' key' built')
    (hfaults : e.faults.Systemic) (hbuilt : key = none → built = none) :
    key' = none ↔ key = none ∧ (e.IsCall → FailedToLoad store answer) := by
  cases h with
  | disturbed => simp [Event.IsCall]
  | @failed _ a w _ _ hkey hfetch =>
      have hfailed : FailedToLoad store (.error (.abort a)) :=
        ⟨a, rfl, KeyStore.loadFailure_of_fetch hfaults hfetch⟩
      simp [hkey, hfailed]
  | told _ => simp [Event.IsCall, FailedToLoad]
  | @refused _ b _ hbuild _ _ _ =>
      have hcall : e.IsCall := hbuild.isCall
      have hfailed : ¬ FailedToLoad store (.error (.abort (.failure (.keyLength b.length)))) := by
        rintro ⟨a, ha, hfailure⟩
        cases ha
        cases hfailure
      simp [hcall, hfailed]
  | made _ _ _ _ => simp [Event.IsCall, FailedToLoad]
  | forced _ _ _ _ _ => simp [Event.IsCall, FailedToLoad]
  | again hn =>
      have hkey : key ≠ none := fun hkey => by simp [hbuilt hkey] at hn
      simp [hkey]

theorem told_eq {copy : Bool} {faults : KeyFile.Faults} {b : Bytes}
    (h : Reaction store s key built (.ask copy faults) (.ok (.value (keyValue copy b))) s' key'
      built') : key' = some b := by
  generalize hanswer : (.ok (.value (keyValue copy b)) : Except Stop Answer) = answer at h
  cases h with
  | failed => cases hanswer
  | told _ =>
      exact congrArg some (keyValue_injective (Answer.value.inj (Except.ok.inj hanswer))).symm
  | refused => cases hanswer

theorem unbuilt_iff (h : Reaction store s key built e answer s' key' built') :
    built' = none ↔ built = none ∧ (e.IsForce → answer.isOk = false) := by
  cases h with
  | disturbed => simp [Event.IsForce]
  | failed => simp [Except.isOk, Except.toBool]
  | told => simp [Event.IsForce]
  | refused => simp [Except.isOk, Except.toBool]
  | made => simp [Event.IsForce]
  | forced => simp [Event.IsForce, Except.isOk, Except.toBool]
  | again hn => simp [hn]

theorem forced_eq {faults : KeyFile.Faults} {n : Nat}
    (h : Reaction store s key built (.force faults) (.ok (.handler n)) s' key' built') :
    built' = some n := by
  cases h with
  | forced => rfl
  | again hn => exact hn

theorem keyed (h : Reaction store s key built e answer s' key' built') (hadds : Adds s s')
    (hkeyed : ∀ n, built = some n → ∃ b, key = some b ∧ Keyed s n b) {n : Nat}
    (hn : built' = some n) : ∃ b, key' = some b ∧ Keyed s' n b := by
  have hold : built = some n → ∃ b, key' = some b ∧ Keyed s' n b := by
    intro hbuilt
    obtain ⟨b, hb, hkey⟩ := hkeyed n hbuilt
    exact ⟨b, h.keeps.1 b hb, hadds.keyed hkey⟩
  cases h with
  | @forced _ b _ n' _ _ _ _ hkey _ =>
      obtain rfl := Option.some.inj hn
      exact ⟨b, rfl, hkey⟩
  | _ => exact hold hn

/-- A call that cannot get the key keeps nothing. -/
theorem of_error (h : Reaction store s key built e answer s' key' built') (hcall : e.IsCall)
    (hbuilt : e.IsForce → built = none) {a : Abort} {w : World}
    (hobtain : KeyStore.obtain { store with key } e.faults s.world = (.error a, w)) :
    answer = .error (.abort a) ∧ s' = { s with world := w } ∧ key' = none := by
  cases h with
  | disturbed => exact hcall.elim
  | failed _ _ _ hfetch =>
      cases (KeyStore.fetch_of_obtain_error hobtain).2.symm.trans hfetch
      exact ⟨rfl, rfl, rfl⟩
  | told hb => cases hobtain.symm.trans hb
  | refused _ _ hb _ => cases hobtain.symm.trans hb
  | made hb _ _ _ => cases hobtain.symm.trans hb
  | forced _ hb _ _ _ => cases hobtain.symm.trans hb
  | again hn => cases hn.symm.trans (hbuilt trivial)

/-- A call that gets the key keeps it, whatever is made of it. -/
theorem of_ok (h : Reaction store s key built e answer s' key' built') (hcall : e.IsCall)
    (hbuilt : e.IsForce → built = none) {b : Bytes} {w : World}
    (hobtain : KeyStore.obtain { store with key } e.faults s.world = (.ok b, w)) :
    key' = some b ∧ s'.world.files = w.files ∧
      (∀ copy faults, e = .ask copy faults →
        answer = .ok (.value (keyValue copy b)) ∧ s'.world = w) ∧
      (e.IsBuild →
        (b.length = 32 →
          ∃ n, answer = .ok (.handler n) ∧ Keyed s' n b ∧ (e.IsForce → built' = some n)) ∧
        (b.length ≠ 32 →
          answer = .error (.abort (.failure (.keyLength b.length))) ∧ built' = built)) := by
  cases h with
  | disturbed => exact hcall.elim
  | failed _ _ hkey hfetch =>
      subst hkey
      cases hobtain.symm.trans hfetch
  | told hb =>
      cases hobtain.symm.trans hb
      refine ⟨rfl, rfl, ?_, nofun⟩
      rintro copy faults ⟨⟩
      exact ⟨rfl, rfl⟩
  | refused hbuild _ hb hlen =>
      cases hobtain.symm.trans hb
      refine ⟨rfl, rfl, ?_, fun _ => ⟨fun h => (hlen h).elim, fun _ => ⟨rfl, rfl⟩⟩⟩
      rintro copy faults rfl
      exact hbuild.elim
  | @made _ _ _ n _ hb hlen hkeyed hfiles =>
      cases hobtain.symm.trans hb
      refine ⟨rfl, hfiles, ?_, fun _ => ⟨fun _ => ?_, fun h => absurd hlen h⟩⟩
      · rintro copy faults ⟨⟩
      · exact ⟨n, rfl, hkeyed, fun h => h.elim⟩
  | @forced _ _ _ n _ _ hb hlen hkeyed hfiles =>
      cases hobtain.symm.trans hb
      refine ⟨rfl, hfiles, ?_, fun _ => ⟨fun _ => ?_, fun h => absurd hlen h⟩⟩
      · rintro copy faults ⟨⟩
      · exact ⟨n, rfl, hkeyed, fun _ => rfl⟩
  | again hn => cases hn.symm.trans (hbuilt trivial)

end Reaction

/-- A handler is built only from a key. -/
theorem Remembers.unbuilt_of_unloaded {past : List (Event × Except Stop Answer)}
    (h : Remembers store past s key built) (hkey : key = none) : built = none := by
  cases hbuilt : built with
  | none => rfl
  | some n =>
      obtain ⟨b, hb, -⟩ := h.keyed n hbuilt
      exact (Option.some_ne_none b (hb.symm.trans hkey)).elim

theorem Remembers.next {past : List (Event × Except Stop Answer)} {e : Event}
    {answer : Except Stop Answer} {s' : Session} {key' : Option Bytes} {built' : Option Nat}
    (h : Remembers store past s key built) (hfaults : e.faults.Systemic)
    (hreaction : Reaction store s key built e answer s' key' built') (hadds : Adds s s') :
    Remembers store (past ++ [(e, answer)]) s' key' built' where
  unloaded := by
    rw [hreaction.unloaded_iff hfaults h.unbuilt_of_unloaded, h.unloaded, List.forall_mem_append]
    simp
  told := by
    intro copy faults b hmem
    rcases List.mem_append.mp hmem with hpast | hlast
    · exact hreaction.keeps.1 b (h.told copy faults b hpast)
    · obtain ⟨rfl, rfl⟩ := Prod.mk.inj (List.mem_singleton.mp hlast)
      exact hreaction.told_eq
  unbuilt := by
    rw [hreaction.unbuilt_iff, h.unbuilt, List.forall_mem_append]
    simp
  forced := by
    intro faults n hmem
    rcases List.mem_append.mp hmem with hpast | hlast
    · exact hreaction.keeps.2 n (h.forced faults n hpast)
    · obtain ⟨rfl, rfl⟩ := Prod.mk.inj (List.mem_singleton.mp hlast)
      exact hreaction.forced_eq
  keyed _ hn := hreaction.keyed hadds h.keyed hn

/-- Whatever has happened so far, what is kept fits the answers. -/
theorem follow_remembers (history : List Event) (hfaults : ∀ e ∈ history, e.faults.Systemic)
    {past : List (Event × Except Stop Answer)} (hrests : Rests i j store s key built)
    (hremembers : Remembers store past s key built) :
    ∃ key' built', Rests i j store (follow i j history s).2 key' built' ∧
      Remembers store (past ++ (follow i j history s).1) (follow i j history s).2 key' built' := by
  induction history generalizing s past key built with
  | nil =>
      rw [follow, List.append_nil]
      exact ⟨key, built, hrests, hremembers⟩
  | cons e history ih =>
      obtain ⟨key₁, built₁, hreaction, hrests₁, hadds⟩ := act_reacts hrests e
      have hnext := hremembers.next (hfaults e List.mem_cons_self) hreaction hadds
      have hrest := ih (fun e' he' => hfaults e' (List.mem_cons_of_mem e he')) hrests₁ hnext
      rw [List.append_assoc] at hrest
      exact hrest

/-- How an event is answered after all that has been answered before it. -/
structure Lasting (i j : Nat) (store : KeyStore) (past : List (Event × Except Stop Answer))
    (s : Session) (e : Event) (answer : Except Stop Answer) (s' : Session) : Prop where
  /-- What the store says of itself. -/
  loaded : s.stores[i]?.map KeyStore.isLoaded = some (s.keyOf i).isSome
  /-- There is a key as soon as one call has not failed to load. -/
  unloaded : s.keyOf i = none ↔ ∀ r ∈ past, r.1.IsCall → FailedToLoad store r.2
  /-- Without a key, each call goes to the key file; if that fails, nothing is kept. -/
  failing : ∀ a w, s.keyOf i = none → e.IsCall →
    lead (store.fetch e.faults) s.world = (.error a, w) →
      store.LoadFailure a ∧ answer = .error (.abort a) ∧ s' = { s with world := w }
  loading : ∀ b w, s.keyOf i = none → e.IsCall →
    lead (store.fetch e.faults) s.world = (.ok b, w) →
      s'.keyOf i = some b ∧ s'.world.files = w.files ∧
        ∀ copy faults, e = .ask copy faults →
          answer = .ok (.value (keyValue copy b)) ∧ s'.world = w
  /-- The octets that a load has returned are the key, and the key is kept. -/
  returned : ∀ copy faults b, (.ask copy faults, .ok (.value (keyValue copy b))) ∈ past →
    s.keyOf i = some b
  kept : ∀ b, s.keyOf i = some b → s'.keyOf i = some b
  /-- A key that is kept is returned, and nothing is read, drawn or logged for it. -/
  told : ∀ b copy faults, s.keyOf i = some b → e = .ask copy faults →
    answer = .ok (.value (keyValue copy b)) ∧ s'.world = s.world
  handler : ∀ b faults, s'.keyOf i = some b → e = .handler faults →
    (b.length = 32 → ∃ n, answer = .ok (.handler n) ∧ Keyed s' n b) ∧
      (b.length ≠ 32 → answer = .error (.abort (.failure (.keyLength b.length))))
  /-- There is a handler as soon as one has been answered. -/
  unbuilt : s.builtOf j = none ↔ ∀ r ∈ past, r.1.IsForce → r.2.isOk = false
  building : ∀ b faults, s.builtOf j = none → s'.keyOf i = some b → e = .force faults →
    (b.length = 32 → ∃ n, answer = .ok (.handler n) ∧ s'.builtOf j = some n ∧ Keyed s' n b) ∧
      (b.length ≠ 32 → answer = .error (.abort (.failure (.keyLength b.length))) ∧
        s'.builtOf j = none)
  built : ∀ faults faults' n, (.force faults, .ok (.handler n)) ∈ past → e = .force faults' →
    answer = .ok (.handler n) ∧ s' = s ∧ ∃ b, s.keyOf i = some b ∧ Keyed s n b

theorem Rests.keyOf_eq (h : Rests i j store s key built) : s.keyOf i = key := by
  rw [keyOf, h.store]
  rfl

theorem Rests.builtOf_eq (h : Rests i j store s key built) : s.builtOf j = built := by
  rw [builtOf, h.lazy]
  rfl

/-- What a handler is made of has been got, now or before. -/
theorem Reaction.of_key {e : Event} {answer : Except Stop Answer} {s' : Session}
    {built' : Option Nat} {b : Bytes}
    (h : Reaction store s key built e answer s' (some b) built') (hbuild : e.IsBuild)
    (hbuilt : e.IsForce → built = none) :
    (b.length = 32 →
      ∃ n, answer = .ok (.handler n) ∧ Keyed s' n b ∧ (e.IsForce → built' = some n)) ∧
    (b.length ≠ 32 →
      answer = .error (.abort (.failure (.keyLength b.length))) ∧ built' = built) := by
  have hcall : e.IsCall := hbuild.isCall
  cases hobtain : KeyStore.obtain { store with key } e.faults s.world with
  | mk r w =>
      cases r with
      | error a => cases (h.of_error hcall hbuilt hobtain).2.2
      | ok b' =>
          obtain ⟨hb, -, -, hmakes⟩ := h.of_ok hcall hbuilt hobtain
          obtain rfl := Option.some.inj hb
          exact hmakes hbuild

theorem lasting_of_reaction {past : List (Event × Except Stop Answer)} {e : Event}
    {answer : Except Stop Answer} {s' : Session} {key' : Option Bytes} {built' : Option Nat}
    (hfaults : e.faults.Systemic) (hrests : Rests i j store s key built)
    (hremembers : Remembers store past s key built)
    (hreaction : Reaction store s key built e answer s' key' built')
    (hrests' : Rests i j store s' key' built') : Lasting i j store past s e answer s' where
  loaded := by
    rw [hrests.keyOf_eq, hrests.store]
    rfl
  unloaded := by
    rw [hrests.keyOf_eq]
    exact hremembers.unloaded
  failing := by
    intro a w hkey hcall hfetch
    rw [hrests.keyOf_eq] at hkey
    subst hkey
    obtain ⟨hanswer, hs, -⟩ :=
      hreaction.of_error hcall (fun _ => hremembers.unbuilt_of_unloaded rfl) hfetch
    exact ⟨KeyStore.loadFailure_of_fetch hfaults hfetch, hanswer, hs⟩
  loading := by
    intro b w hkey hcall hfetch
    rw [hrests.keyOf_eq] at hkey
    subst hkey
    obtain ⟨hb, hfiles, hask, -⟩ :=
      hreaction.of_ok hcall (fun _ => hremembers.unbuilt_of_unloaded rfl) hfetch
    exact ⟨hrests'.keyOf_eq.trans hb, hfiles, hask⟩
  returned := by
    intro copy faults b hmem
    rw [hrests.keyOf_eq]
    exact hremembers.told copy faults b hmem
  kept := by
    intro b hkey
    rw [hrests.keyOf_eq] at hkey
    rw [hrests'.keyOf_eq]
    exact hreaction.keeps.1 b hkey
  told := by
    intro b copy faults hkey he
    rw [hrests.keyOf_eq] at hkey
    subst hkey he
    exact (hreaction.of_ok trivial (fun h => h.elim) rfl).2.2.1 copy faults rfl
  handler := by
    intro b faults hkey he
    rw [hrests'.keyOf_eq] at hkey
    subst hkey he
    obtain ⟨hmakes, hrefuses⟩ := hreaction.of_key trivial (fun h => h.elim)
    refine ⟨fun hlen => ?_, fun hlen => (hrefuses hlen).1⟩
    obtain ⟨n, hanswer, hkeyed, -⟩ := hmakes hlen
    exact ⟨n, hanswer, hkeyed⟩
  unbuilt := by
    rw [hrests.builtOf_eq]
    exact hremembers.unbuilt
  building := by
    intro b faults hbuilt hkey he
    rw [hrests.builtOf_eq] at hbuilt
    rw [hrests'.keyOf_eq] at hkey
    rw [hrests'.builtOf_eq]
    subst hkey he
    obtain ⟨hmakes, hrefuses⟩ := hreaction.of_key trivial (fun _ => hbuilt)
    refine ⟨fun hlen => ?_, fun hlen => ?_⟩
    · obtain ⟨n, hanswer, hkeyed, hn⟩ := hmakes hlen
      exact ⟨n, hanswer, hn trivial, hkeyed⟩
    · obtain ⟨hanswer, hn⟩ := hrefuses hlen
      exact ⟨hanswer, hn.trans hbuilt⟩
  built := by
    intro faults faults' n hmem he
    have hn := hremembers.forced faults n hmem
    obtain ⟨b, hb, hkeyed⟩ := hremembers.keyed n hn
    subst he
    cases hreaction with
    | failed _ hunbuilt _ _ => cases hn.symm.trans (hunbuilt trivial)
    | refused _ hunbuilt _ _ => cases hn.symm.trans (hunbuilt trivial)
    | forced hunbuilt _ _ _ _ => cases hn.symm.trans hunbuilt
    | again hn' =>
        obtain rfl := Option.some.inj (hn.symm.trans hn')
        exact ⟨rfl, rfl, b, hrests.keyOf_eq.trans hb, hkeyed⟩

/-- After any history of calls, changes to the files and overwritten copies, the next event is
answered as the history demands: a key that has been got is kept, and so is a handler that has been
built; until then every call tries again. -/
theorem follow_lasting (s : Session) (i j : Nat) (store : KeyStore)
    (hstore : s.stores[i]? = some store) (hunloaded : store.key = none)
    (hlazy : s.lazies[j]? = some { store := some i, handler := {} })
    (history : List Event) (e : Event) (hfaults : ∀ e' ∈ history ++ [e], e'.faults.Systemic) :
    Lasting i j store (follow i j history s).1 (follow i j history s).2 e
      (lead (act i j e) (follow i j history s).2).1
      (lead (act i j e) (follow i j history s).2).2 := by
  have hstart : Rests i j store s none none := by
    refine ⟨?_, hlazy⟩
    rw [hstore, ← hunloaded]
  obtain ⟨key, built, hrests, hremembers⟩ := follow_remembers history
    (fun e' he' => hfaults e' (List.mem_append_left _ he')) hstart (.start store s)
  obtain ⟨key', built', hreaction, hrests', -⟩ := act_reacts hrests e
  exact lasting_of_reaction (hfaults e (by simp)) hrests hremembers hreaction hrests'

/-- A disk that is full at first, a key that then turns up, and one that replaces it. -/
theorem follow_lasting_late_key :
    let store : KeyStore :=
      { path := .ofString "data/key", fatal := true, lock := ["key", "data", "home"], key := none }
    let s : Session :=
      { stores := [store], lazies := [{ store := some 0, handler := {} }]
        world := KeyFile.bare }
    let holding (bs : Bytes) : FileTree :=
      { KeyFile.bare.files with
        entries := [(["key", "data", "home"], .file 0o400 bs), (["data", "home"], .directory 0o755),
          (["home"], .directory 0o755)] }
    let history : List Event :=
      [.ask false KeyFile.fullDisk, .disturb (holding (List.replicate 32 7)) [], .force {},
        .disturb (holding []) []]
    Lasting 0 0 store (follow 0 0 history s).1 (follow 0 0 history s).2 (.ask true {})
      (lead (act 0 0 (.ask true {})) (follow 0 0 history s).2).1
      (lead (act 0 0 (.ask true {})) (follow 0 0 history s).2).2 := by
  intro store s holding history
  refine follow_lasting s 0 0 store rfl rfl rfl history (.ask true {}) ?_
  have hnone : ({} : KeyFile.Faults).Systemic := ⟨nofun, nofun, nofun⟩
  have hdisk : KeyFile.fullDisk.Systemic := ⟨nofun, nofun, nofun⟩
  simp [history, Event.faults, hnone, hdisk]

/-- Behind a link that leads back to itself, a name that no file can have is not looked at when a
store is made, and makes each load fail in a way of its own. -/
theorem ask_nul_behind_loop :
    let files : FileTree := { entries := [(["loop"], .link "loop")], workingDirectory := [] }
    let w : World := { ambient := ⟨.ofBytes [], .ofBytes [], []⟩, files }
    ∃ store, lead (KeyStore.make (.ofString "loop/../a\x00/../k") false) w = (.ok store, w) ∧
      ∃ a, (lead (act 0 0 (.ask false {})) { stores := [store], world := w }).1 =
          .error (.abort a) ∧
        ∀ f, a ≠ .failure f ∧ a ≠ .exit f := by
  intro files w
  have hcanonical : files.canonical (.ofString "loop/../a\x00/../k") = .ok ["k"] := by
    apply FileTree.canonical_of_toOption
    decide +kernel
  let store : KeyStore :=
    { path := .ofString "loop/../a\x00/../k", fatal := false, lock := ["k"], key := none }
  have hnul : store.path.parent.hasNul = true := by decide
  have hparents : KeyFile.advance store.path {} .parents w =
      (KeyFile.Move.misused .nulInPath, w) := by
    rw [KeyFile.advance, KeyFile.makeParents, if_pos hnul]
  have hobtain : store.obtain {} w = (.error (.misuse .nulInPath), w) := by
    change KeyFile.finish store.path {} .parents w = _
    exact KeyFile.finish_of_ended hparents
  refine ⟨store, ?_, .misuse .nulInPath, ?_, fun f => ⟨by rintro ⟨⟩, by rintro ⟨⟩⟩⟩
  · exact KeyStore.lead_make hcanonical false
  · let s : Session := { stores := [store], world := w }
    have hstore : s.stores[0]? = some store := rfl
    rw [lead_ask_of_error hstore hobtain]

end Strongbox.Session
