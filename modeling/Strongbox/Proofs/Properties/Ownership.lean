import Strongbox.Properties
import Strongbox.Proofs.Dictionary
import Strongbox.Proofs.Steady

/-! # Which value owns a name

The first source that has a name owns it. The overlay comes from decrypting, one after the other,
the marked values among those that own a name; values that are hidden leave no trace in it. -/

namespace Strongbox

namespace Properties

/-! ## Owners -/

/-- The names of the sources, each once, in the order in which they first appear. -/
def names (sources : List Source) : List String :=
  (sources.flatMap Dictionary.keys).eraseDups

/-- The value of a name in the first source that has it. -/
def owner? (sources : List Source) (k : String) : Option Value :=
  (sources.find? fun source => source.contains k).bind fun source => source.find? k

variable {sources : List Source} {k : String}

theorem owner?_cons (source : Source) (sources : List Source) (k : String) :
    owner? (source :: sources) k = (source.find? k).or (owner? sources k) := by
  unfold owner? Dictionary.contains
  rw [List.find?_cons]
  cases h : source.find? k with
  | none => rfl
  | some v => simp [h]

theorem findSome?_find? (sources : List Source) (k : String) :
    (sources.findSome? fun source => source.find? k) = owner? sources k := by
  induction sources with
  | nil => rfl
  | cons source sources ih =>
      rw [List.findSome?_cons, owner?_cons, ih]
      cases source.find? k <;> rfl

theorem lookup_flatMap_entries (sources : List Source) (k : String) :
    (sources.flatMap Dictionary.entries).lookup k = owner? sources k := by
  induction sources with
  | nil => rfl
  | cons source sources ih =>
      rw [List.flatMap_cons, List.lookup_append, ih, owner?_cons]
      rfl

theorem mem_names_iff : k ∈ names sources ↔ (owner? sources k).isSome := by
  rw [names, List.mem_eraseDups, List.mem_flatMap]
  induction sources with
  | nil => simp [owner?]
  | cons source sources ih =>
      rw [owner?_cons, Option.isSome_or, Bool.or_eq_true, ← ih, ← Dictionary.mem_keys_iff]
      simp

/-! ## The overlay as a list of tasks -/

/-- The entries whose names have not been seen, each name once. -/
def unseen : List String → List (String × Value) → List (String × Value)
  | _, [] => []
  | seen, (k, v) :: rest =>
    if k ∈ seen then unseen seen rest else (k, v) :: unseen (k :: seen) rest

/-- What follows the marker in an entry that is marked, under the name of the entry. -/
def encodedUnder? (h : Handler) (e : String × Value) : Option (String × Value) :=
  (h.marked? e.2).map fun encoded => (e.1, encoded)

def decryptEntry (h : Handler) (e : String × Value) : Task (String × String) := do
  return (e.1, ← h.cipher.decryptText e.2)

theorem decryptEntries_eq_mapM (h : Handler) (seen : List String)
    (entries : List (String × Value)) :
    decryptEntries h seen entries =
      ((unseen seen entries).filterMap (encodedUnder? h)).mapM (decryptEntry h) := by
  induction entries generalizing seen with
  | nil => rfl
  | cons e rest ih =>
      obtain ⟨k, v⟩ := e
      rw [decryptEntries, unseen]
      by_cases hk : k ∈ seen
      · rw [if_pos hk, if_pos hk, ih]
      · rw [if_neg hk, if_neg hk, List.filterMap_cons, encodedUnder?]
        cases h.marked? v with
        | none => exact ih _
        | some encoded => simp [decryptEntry, ih]

/-- An entry at the front hides all others under its name, unless it is hidden itself. -/
theorem lookup_encoded_unseen (h : Handler) (seen : List String)
    (entries : List (String × Value)) (k : String) :
    ((unseen seen entries).filterMap (encodedUnder? h)).lookup k =
      if k ∈ seen then none else (entries.lookup k).bind h.marked? := by
  induction entries generalizing seen with
  | nil => simp [unseen]
  | cons e rest ih =>
      obtain ⟨j, v⟩ := e
      rw [unseen, List.lookup_cons]
      by_cases hj : j ∈ seen
      · rw [if_pos hj, ih]
        by_cases hkj : k = j
        · rw [if_pos (hkj ▸ hj), if_pos (hkj ▸ hj)]
        · rw [beq_false_of_ne hkj]
      · rw [if_neg hj, List.filterMap_cons, encodedUnder?]
        by_cases hkj : k = j
        · subst hkj
          rw [if_neg hj, beq_self_eq_true]
          cases hv : h.marked? v with
          | none =>
              dsimp only [Option.map_none]
              rw [ih, if_pos List.mem_cons_self, Option.bind_some, hv]
          | some encoded => simp [hv]
        · have hmem : k ∈ j :: seen ↔ k ∈ seen := by simp [hkj]
          rw [beq_false_of_ne hkj]
          cases h.marked? v with
          | none =>
              dsimp only [Option.map_none]
              simp only [ih, hmem]
          | some encoded =>
              dsimp only [Option.map_some]
              rw [List.lookup_cons, beq_false_of_ne hkj]
              simp only [ih, hmem]

theorem steady_decryptEntry (h : Handler) (e : String × Value) : (decryptEntry h e).Steady :=
  (h.cipher.steady_decryptText _).bind fun s => Task.steady_pure (e.1, s)

theorem decryptEntry_yields_iff {h : Handler} {e : String × Value} {e' : String × String} :
    (decryptEntry h e).Yields e' ↔ e'.1 = e.1 ∧ (h.cipher.decryptText e.2).Yields e'.2 := by
  constructor
  · intro hyields
    have hstart := hyields ⟨.ofBytes [], .ofBytes [], []⟩
    obtain ⟨s, a, hs, hpure⟩ := Task.perform_bind_eq_ok_iff.mp hstart
    obtain rfl := Except.ok.inj (Prod.mk.inj hpure).1
    exact ⟨rfl, (h.cipher.steady_decryptText _ _ s a hs).1⟩
  · obtain ⟨k, s⟩ := e'
    rintro ⟨rfl, hs⟩
    exact hs.bind (Task.yields_pure _)

theorem exists_forall₂ {α β : Type} {r : α → β → Prop} {xs : List α}
    (h : ∀ x ∈ xs, ∃ y, r x y) : ∃ ys, List.Forall₂ r xs ys := by
  induction xs with
  | nil => exact ⟨[], .nil⟩
  | cons x xs ih =>
      obtain ⟨y, hy⟩ := h x List.mem_cons_self
      obtain ⟨ys, hys⟩ := ih fun x' hx' => h x' (List.mem_cons_of_mem x hx')
      exact ⟨y :: ys, .cons hy hys⟩

theorem lookup_of_forall₂ {h : Handler} {encoded : List (String × Value)}
    {overlay : List (String × String)}
    (hall : List.Forall₂ (fun e e' => (decryptEntry h e).Yields e') encoded overlay) (k : String) :
    Option.Rel (fun w s => (h.cipher.decryptText w).Yields s) (encoded.lookup k)
      (overlay.lookup k) := by
  induction hall with
  | nil => exact .none
  | @cons e e' _ _ hentry _ ih =>
      obtain ⟨hname, htext⟩ := decryptEntry_yields_iff.mp hentry
      rw [List.lookup_cons, List.lookup_cons, hname]
      cases k == e.1 with
      | true => exact .some htext
      | false => exact ih

/-! ## What the overlay holds -/

/-- The state after the names have been logged, if there are any. -/
def noted (overlay : List (String × String)) (a : Ambient) : Ambient :=
  if overlay.isEmpty then a
  else a.record .debug
    s!"Decrypted properties: {Value.quotedNames (sortNames (overlay.map Prod.fst))}"

theorem perform_decrypt (h : Handler) (sources : List Source) (a : Ambient) :
    perform (decrypt h sources) a =
      match perform (decryptEntries h [] (sources.flatMap Dictionary.entries)) a with
      | (.ok overlay, a') => (.ok overlay, noted overlay a')
      | (.error e, a') => (.error e, a') := by
  rw [decrypt, perform_bind]
  cases perform (decryptEntries h [] (sources.flatMap Dictionary.entries)) a with
  | mk r a' =>
      cases r with
      | error e => rfl
      | ok overlay =>
          cases hempty : overlay.isEmpty with
          | true => simp [noted, hempty]
          | false => simp [noted, hempty, Except.map]

theorem forall₂_of_decrypt {h : Handler} {overlay : List (String × String)} {a a' : Ambient}
    (hd : perform (decrypt h sources) a = (.ok overlay, a')) :
    List.Forall₂ (fun e e' => (decryptEntry h e).Yields e')
      ((unseen [] (sources.flatMap Dictionary.entries)).filterMap (encodedUnder? h)) overlay := by
  rw [perform_decrypt, decryptEntries_eq_mapM] at hd
  generalize hled : perform (List.mapM _ _) a = led at hd
  obtain ⟨r, a₁⟩ := led
  cases r with
  | error e => cases (Prod.mk.inj hd).1
  | ok decrypted =>
      obtain rfl := Except.ok.inj (Prod.mk.inj hd).1
      exact Task.forall₂_of_mapM (steady_decryptEntry h) hled

/-- The overlay holds the text of the owning value under each name whose owning value is marked. -/
theorem lookup_overlay {h : Handler} {overlay : List (String × String)} {a a' : Ambient}
    (hd : perform (decrypt h sources) a = (.ok overlay, a')) (k : String) :
    Option.Rel (fun encoded s => (h.cipher.decryptText encoded).Yields s)
      ((owner? sources k).bind h.marked?) (overlay.lookup k) := by
  have hlookup := lookup_of_forall₂ (forall₂_of_decrypt hd) k
  rwa [lookup_encoded_unseen, if_neg List.not_mem_nil, lookup_flatMap_entries] at hlookup

/-! ## When decryption succeeds -/

/-- Each name stands for its first entry only. -/
theorem lookup_of_mem_unseen {h : Handler} {seen : List String} {entries : List (String × Value)}
    {e : String × Value} (he : e ∈ (unseen seen entries).filterMap (encodedUnder? h)) :
    e.1 ∉ seen ∧ ∃ v, entries.lookup e.1 = some v ∧ h.marked? v = some e.2 := by
  induction entries generalizing seen with
  | nil => simp [unseen] at he
  | cons e' rest ih =>
      obtain ⟨k, v⟩ := e'
      rw [unseen] at he
      rw [List.lookup_cons]
      by_cases hk : k ∈ seen
      · rw [if_pos hk] at he
        obtain ⟨hseen, howner⟩ := ih he
        have hne : e.1 ≠ k := fun heq => hseen (heq ▸ hk)
        rw [beq_false_of_ne hne]
        exact ⟨hseen, howner⟩
      · rw [if_neg hk, List.mem_filterMap] at he
        obtain ⟨e', he', hencoded⟩ := he
        rcases List.mem_cons.mp he' with rfl | hrest
        · obtain ⟨encoded, hv, rfl⟩ := Option.map_eq_some_iff.mp hencoded
          exact ⟨hk, v, by simp, hv⟩
        · obtain ⟨hseen, howner⟩ := ih (List.mem_filterMap.mpr ⟨e', hrest, hencoded⟩)
          have hne : e.1 ≠ k := fun heq => hseen (heq ▸ List.mem_cons_self)
          rw [beq_false_of_ne hne]
          exact ⟨fun h => hseen (List.mem_cons_of_mem k h), howner⟩

/-- It is enough that the marked values decrypt that own a name; no other value is looked at. -/
theorem exists_decrypt {h : Handler}
    (hall : ∀ k v encoded, owner? sources k = some v → h.marked? v = some encoded →
      ∃ s, (h.cipher.decryptText encoded).Yields s) (a : Ambient) :
    ∃ overlay a', perform (decrypt h sources) a = (.ok overlay, a') := by
  have hentry : ∀ e ∈ (unseen [] (sources.flatMap Dictionary.entries)).filterMap (encodedUnder? h),
      ∃ e', (decryptEntry h e).Yields e' := by
    intro e he
    obtain ⟨-, v, howner, hv⟩ := lookup_of_mem_unseen he
    rw [lookup_flatMap_entries] at howner
    obtain ⟨s, hs⟩ := hall e.1 v e.2 howner hv
    exact ⟨(e.1, s), decryptEntry_yields_iff.mpr ⟨rfl, hs⟩⟩
  obtain ⟨overlay, hoverlay⟩ := exists_forall₂ hentry
  refine ⟨overlay, noted overlay a, ?_⟩
  rw [perform_decrypt, decryptEntries_eq_mapM, Task.yields_mapM hoverlay a]

end Properties

end Strongbox
