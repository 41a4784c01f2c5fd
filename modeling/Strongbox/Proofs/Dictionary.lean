import Mathlib.Data.List.Induction
import Mathlib.Data.List.Nodup
import Mathlib.Data.List.Perm.Subperm
import Strongbox.Dictionary
import Strongbox.Value

/-! # Dictionaries

What is known of a dictionary from its entries, and when two dictionaries of values are equal. -/

namespace Strongbox

theorem AssocList.put_of_not_mem {α : Type} (k : String) (v : α) {entries : List (String × α)}
    (hk : k ∉ entries.map Prod.fst) : put k v entries = entries ++ [(k, v)] := by
  induction entries with
  | nil => rfl
  | cons e entries ih =>
      obtain ⟨k', v'⟩ := e
      rw [List.map_cons, List.mem_cons, not_or] at hk
      rw [put, if_neg fun heq => hk.1 heq.symm, ih hk.2]
      rfl

/-- A filter that drops a key does not see what is put there. -/
theorem AssocList.filter_put {α : Type} {p : String × α → Bool} {k : String}
    (hp : ∀ v, p (k, v) = false) (v : α) (entries : List (String × α)) :
    (put k v entries).filter p = entries.filter p := by
  induction entries with
  | nil => simp [put, hp]
  | cons e entries ih =>
      obtain ⟨k', v'⟩ := e
      rw [put]
      split
      · rename_i heq
        subst heq
        rw [List.filter_cons, List.filter_cons, hp, hp]
        rfl
      · rw [List.filter_cons, List.filter_cons, ih]

theorem AssocList.filter_remove {α : Type} {p : String × α → Bool} {k : String}
    (hp : ∀ v, p (k, v) = false) (entries : List (String × α)) :
    (remove k entries).filter p = entries.filter p := by
  induction entries with
  | nil => rfl
  | cons e entries ih =>
      obtain ⟨k', v'⟩ := e
      rw [remove]
      split
      · rename_i heq
        subst heq
        rw [ih, List.filter_cons, hp]
        rfl
      · rw [List.filter_cons, List.filter_cons, ih]

namespace Dictionary

variable {α : Type} {d : Dictionary α} {k : String} {v : α}

theorem mem_keys_iff : k ∈ d.keys ↔ (d.find? k).isSome := by
  rw [find?, List.lookup_isSome_iff]
  simp [keys]

theorem find?_eq_some_iff : d.find? k = some v ↔ (k, v) ∈ d.entries := by
  rw [find?, List.lookup_eq_some_iff]
  constructor
  · rintro ⟨front, back, hsplit, -⟩
    simp [hsplit]
  · intro hmem
    obtain ⟨front, back, hsplit⟩ := List.append_of_mem hmem
    refine ⟨front, back, hsplit, fun e he => ?_⟩
    have hnodup := d.nodup
    rw [hsplit, List.map_append, List.map_cons, List.nodup_append] at hnodup
    have hne : e.1 ≠ k := hnodup.2.2 e.1 (List.mem_map_of_mem he) k List.mem_cons_self
    simpa using hne.symm

/-! ## From a list of entries -/

theorem entries_insert (d : Dictionary α) (k : String) (v : α) :
    (d.insert k v).entries = AssocList.put k v d.entries :=
  rfl

theorem ofList_concat (entries : List (String × α)) (e : String × α) :
    ofList (entries ++ [e]) = (ofList entries).insert e.1 e.2 := by
  rw [ofList, List.foldl_append]
  rfl

/-- A name has the place of its first entry. -/
theorem keys_ofList (entries : List (String × α)) :
    (ofList entries).keys = (entries.map Prod.fst).eraseDups := by
  induction entries using List.reverseRecOn with
  | nil => rfl
  | append_singleton entries e ih =>
      rw [ofList_concat, keys_insert, ih, List.map_append, List.eraseDups_append]
      by_cases he : e.1 ∈ entries.map Prod.fst
      · rw [if_pos (List.mem_eraseDups.mpr he)]
        simp [List.removeAll, he]
      · rw [if_neg (mt List.mem_eraseDups.mp he)]
        simp [List.removeAll, he, List.eraseDups_cons]

/-- A name has the value of its last entry. -/
theorem find?_ofList (entries : List (String × α)) (k : String) :
    (ofList entries).find? k = entries.reverse.lookup k := by
  induction entries using List.reverseRecOn with
  | nil => rfl
  | append_singleton entries e ih =>
      rw [ofList_concat, find?_insert, ih, List.reverse_append, List.reverse_singleton,
        List.singleton_append, List.lookup_cons]
      by_cases hk : k = e.1
      · rw [if_pos hk, hk, beq_self_eq_true]
      · rw [if_neg hk, beq_false_of_ne hk]

/-- Made from its own entries, a dictionary is the same again. -/
theorem ofList_entries (d : Dictionary α) : ofList d.entries = d := by
  have hall : ∀ entries : List (String × α), (entries.map Prod.fst).Nodup →
      (ofList entries).entries = entries := by
    intro entries hnodup
    induction entries using List.reverseRecOn with
    | nil => rfl
    | append_singleton entries e ih =>
        rw [List.map_append, List.nodup_append] at hnodup
        have hnew : e.1 ∉ entries.map Prod.fst := fun hmem =>
          hnodup.2.2 e.1 hmem e.1 (by simp) rfl
        rw [ofList_concat, entries_insert, ih hnodup.1, AssocList.put_of_not_mem _ _ hnew]
  have hentries := hall d.entries d.nodup
  generalize ofList d.entries = d' at hentries
  cases d'
  cases d
  cases hentries
  rfl

end Dictionary

/-! ## Equality -/

theorem EntryKey.text_beq_iff {k : String} {l : EntryKey} : (text k == l) = true ↔ l = text k := by
  change Value.equalPlain (.text k) l.value = true ↔ _
  cases l <;> simp [value, Value.equalPlain, Value.toInt?, eq_comm]

namespace Value

theorem lookup_text (entries : List (String × Value)) (k : String) :
    (entries.map fun e => (EntryKey.text e.1, e.2)).lookup (.text k) = entries.lookup k := by
  induction entries with
  | nil => rfl
  | cons e entries ih =>
      rw [List.map_cons, List.lookup_cons, List.lookup_cons, ih]
      by_cases hk : k = e.1
      · rw [EntryKey.text_beq_iff.mpr (by rw [hk]), beq_iff_eq.mpr hk]
      · have hkey : (EntryKey.text k == .text e.1) = false :=
          Bool.eq_false_iff.mpr fun h => hk (EntryKey.text.inj (EntryKey.text_beq_iff.mp h)).symm
        rw [beq_false_of_ne hk, hkey]

theorem mem_of_lookup_text {entries : List (EntryKey × Value)} {k : String} {w : Value}
    (h : entries.lookup (.text k) = some w) : (.text k, w) ∈ entries := by
  induction entries with
  | nil => cases h
  | cons e entries ih =>
      rw [List.lookup_cons] at h
      split at h
      · rename_i hk
        obtain ⟨l, v⟩ := e
        obtain rfl := Option.some.inj h
        obtain rfl : l = .text k := EntryKey.text_beq_iff.mp hk
        exact List.mem_cons_self
      · exact List.mem_cons_of_mem _ (ih h)

theorem equalEntries_iff {a b : List (EntryKey × Value)} :
    equalEntries a b = true ↔ ∀ e ∈ a, ∃ w, b.lookup e.1 = some w ∧ e.2.equals w = true := by
  induction a with
  | nil => simp [equalEntries]
  | cons e a ih =>
      obtain ⟨k, v⟩ := e
      rw [equalEntries, Bool.and_eq_true, ih, List.forall_mem_cons]
      cases b.lookup k <;> simp

/-- Entries under texts are equal to others of the same number that have equal values there. -/
theorem equals_dict_iff {a : List (String × Value)} {b : List (EntryKey × Value)} :
    equals (.ofEntries a) (.dict b) = true ↔
      a.length = b.length ∧ ∀ e ∈ a, ∃ w, b.lookup (.text e.1) = some w ∧ e.2.equals w = true := by
  rw [ofEntries, equals, Bool.and_eq_true, decide_eq_true_eq, equalEntries_iff, List.length_map,
    List.forall_mem_map]

end Value

namespace Dictionary

variable {d d' : Dictionary Value}

theorem length_entries (d : Dictionary Value) : d.entries.length = d.keys.length := by
  simp [keys]

/-- Of two dictionaries of one size, the second has no other names if it has those of the first. -/
theorem equals_iff :
    Value.equals (.ofEntries d.entries) (.ofEntries d'.entries) = true ↔
      (∀ k, k ∈ d'.keys ↔ k ∈ d.keys) ∧
        ∀ k v w, d.find? k = some v → d'.find? k = some w → v.equals w = true := by
  rw [Value.ofEntries.eq_1 d'.entries, Value.equals_dict_iff, List.length_map, length_entries,
    length_entries]
  simp only [Value.lookup_text]
  constructor
  · rintro ⟨hsize, hall⟩
    have hsubset : d.keys ⊆ d'.keys := by
      intro k hk
      obtain ⟨v, hv⟩ := Option.isSome_iff_exists.mp (mem_keys_iff.mp hk)
      obtain ⟨w, hw, -⟩ := hall (k, v) (find?_eq_some_iff.mp hv)
      exact mem_keys_iff.mpr (Option.isSome_iff_exists.mpr ⟨w, hw⟩)
    have hperm := (List.subperm_of_subset d.nodup hsubset).perm_of_length_le (Nat.le_of_eq hsize.symm)
    refine ⟨fun k => hperm.mem_iff.symm, fun k v w hv hw => ?_⟩
    obtain ⟨w', hw', hequal⟩ := hall (k, v) (find?_eq_some_iff.mp hv)
    obtain rfl := Option.some.inj (hw'.symm.trans hw)
    exact hequal
  · rintro ⟨hkeys, hvalues⟩
    have hperm := (List.perm_ext_iff_of_nodup d.nodup d'.nodup).mpr fun k => (hkeys k).symm
    refine ⟨hperm.length_eq, fun e he => ?_⟩
    have hv : d.find? e.1 = some e.2 := find?_eq_some_iff.mpr he
    have hk : e.1 ∈ d'.keys := (hkeys e.1).mpr (List.mem_map_of_mem he)
    obtain ⟨w, hw⟩ := Option.isSome_iff_exists.mp (mem_keys_iff.mp hk)
    exact ⟨w, hw, hvalues e.1 e.2 w hv hw⟩

/-- A dictionary is equal to none that has a key which is no text: all its own keys would have to be
there, and there is no room for them. -/
theorem equals_mixed {entries : List (EntryKey × Value)} {e : EntryKey × Value} (he : e ∈ entries)
    (hkey : ∀ k, e.1 ≠ .text k) : Value.equals (.ofEntries d.entries) (.dict entries) = false := by
  refine Bool.eq_false_iff.mpr fun hequal => ?_
  obtain ⟨hsize, hall⟩ := Value.equals_dict_iff.mp hequal
  have hnodup : (d.keys.map EntryKey.text).Nodup :=
    List.Nodup.map (fun _ _ => EntryKey.text.inj) d.nodup
  have hsubset : d.keys.map EntryKey.text ⊆ entries.map Prod.fst := by
    intro l hl
    obtain ⟨k, hk, rfl⟩ := List.mem_map.mp hl
    obtain ⟨v, hv⟩ := Option.isSome_iff_exists.mp (mem_keys_iff.mp hk)
    obtain ⟨w, hw, -⟩ := hall (k, v) (find?_eq_some_iff.mp hv)
    exact List.mem_map_of_mem (Value.mem_of_lookup_text hw)
  have hlength : (entries.map Prod.fst).length = (d.keys.map EntryKey.text).length := by
    rw [List.length_map, List.length_map, ← hsize, length_entries d]
  have hperm := (List.subperm_of_subset hnodup hsubset).perm_of_length_le (Nat.le_of_eq hlength)
  obtain ⟨k, -, hk⟩ := List.mem_map.mp (hperm.mem_iff.mpr (List.mem_map_of_mem he))
  exact hkey k hk.symm

end Dictionary

end Strongbox
