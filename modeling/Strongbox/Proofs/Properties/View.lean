import Strongbox.Proofs.MarkedText
import Strongbox.Proofs.Properties.Ownership

/-! # A view of properties is a dictionary

All that a view is asked is answered as the dictionary would that has the names of the sources in
the order of their first appearance, and under each of them the value that owns it, decrypted. -/

namespace Strongbox

open Properties

theorem Handler.yields_decryptText_of_marked {h : Handler} {v encoded : Value} {s : String}
    (hv : h.marked? v = some encoded) (hs : (h.cipher.decryptText encoded).Yields s) :
    (h.decryptText v).Yields (.text s) := by
  rw [decryptText, hv]
  exact hs.bind (Task.yields_pure _)

theorem Handler.yields_decryptText_of_unmarked {h : Handler} {v : Value}
    (hv : h.marked? v = none) : (h.decryptText v).Yields v := by
  rw [decryptText, hv]
  exact Task.yields_pure v

/-- The dictionary of what the sources come to: each name once, in the order of first appearance,
with what decryption makes of the value that owns it. -/
structure Merges (h : Handler) (sources : List Source) (d : Dictionary Value) : Prop where
  keys : d.keys = names sources
  values : ∀ k v, owner? sources k = some v →
    ∃ w, d.find? k = some w ∧ ∀ a, perform (h.decryptText v) a = (.ok w, a)

namespace PropertyView

/-- Every question to a view is answered from the dictionary. -/
structure Presents (p : PropertyView) (d : Dictionary Value) : Prop where
  get : ∀ k, p.get k = match d.find? k with
    | some v => .ok v
    | none => .error (.missingKey k)
  getD : ∀ k default, p.getD k default = (d.find? k).getD default
  contains : ∀ k, p.contains k = true ↔ k ∈ d.keys
  keys : p.keys = d.keys
  size : p.size = d.keys.length
  items : p.items = d.entries
  /-- Equal to a dictionary with the same keys and equal values. -/
  equals : ∀ d' : Dictionary Value, p.equals (.ofEntries d'.entries) = true ↔
    (∀ k, k ∈ d'.keys ↔ k ∈ d.keys) ∧
      ∀ k v w, d.find? k = some v → d'.find? k = some w → v.equals w = true
  /-- Unequal to a dictionary with a key that is no text without surrogates. -/
  mixed : ∀ entries, (∃ e ∈ entries, ∀ k, e.1 ≠ .text k) → p.equals (.dict entries) = false
  unequal : ∀ v, (∀ entries, v ≠ .dict entries) → p.equals v = false

variable {h : Handler} {sources : List Source} {p : PropertyView} {a a' : Ambient} {k : String}

theorem distinct_eq_eraseDups (seen ks : List String) :
    distinct seen ks = (ks.filter fun k => k ∉ seen).eraseDups := by
  induction ks generalizing seen with
  | nil => simp [distinct]
  | cons k ks ih =>
      rw [distinct]
      by_cases hk : k ∈ seen
      · rw [if_pos hk, ih, List.filter_cons_of_neg (by simpa using hk)]
      · rw [if_neg hk, ih, List.filter_cons_of_pos (by simpa using hk), List.eraseDups_cons,
          List.filter_filter]
        congr 3
        funext j
        by_cases hj : j = k <;> simp [hj]

theorem nodup_distinct (seen ks : List String) : (distinct seen ks).Nodup := by
  induction ks generalizing seen with
  | nil => exact List.nodup_nil
  | cons k ks ih =>
      rw [distinct]
      split
      · exact ih seen
      · refine List.nodup_cons.mpr ⟨?_, ih (k :: seen)⟩
        simp [distinct_eq_eraseDups]

theorem nodup_keys (p : PropertyView) : p.keys.Nodup :=
  nodup_distinct [] _

theorem keys_eq_names (p : PropertyView) : p.keys = names p.sources := by
  rw [keys, distinct_eq_eraseDups, names]
  simp

theorem sources_of_build (hp : perform (build h sources) a = (.ok p, a')) :
    p.sources = sources ∧ ∃ a₁, perform (Properties.decrypt h sources) a = (.ok p.overlay, a₁) := by
  rw [build] at hp
  obtain ⟨overlay, a₁, hd, hpure⟩ := Task.perform_bind_eq_ok_iff.mp hp
  obtain rfl := Except.ok.inj (Prod.mk.inj hpure).1
  exact ⟨rfl, a₁, hd⟩

/-- A name is found in a view if a source has it, and with what its owner decrypts to. -/
theorem find?_of_build (hp : perform (build h sources) a = (.ok p, a')) (k : String) :
    Option.Rel (fun v w => (h.decryptText v).Yields w) (owner? sources k) (p.find? k) := by
  obtain ⟨hsources, a₁, hd⟩ := sources_of_build hp
  have hover := lookup_overlay hd k
  rw [find?, hsources, findSome?_find?]
  cases howner : owner? sources k with
  | none =>
      rw [howner, Option.bind_none] at hover
      generalize p.overlay.lookup k = found at hover
      cases hover
      exact .none
  | some v =>
      rw [howner, Option.bind_some] at hover
      cases hv : h.marked? v with
      | none =>
          rw [hv] at hover
          generalize p.overlay.lookup k = found at hover
          cases hover
          exact .some (Handler.yields_decryptText_of_unmarked hv)
      | some encoded =>
          rw [hv] at hover
          generalize p.overlay.lookup k = found at hover
          cases hover with
          | some hs => exact .some (Handler.yields_decryptText_of_marked hv hs)

/-- A view is built if every marked value that owns its name can be decrypted. -/
theorem exists_build (hall : ∀ k v encoded, owner? sources k = some v →
      h.marked? v = some encoded → ∃ s, (h.cipher.decryptText encoded).Yields s)
    (a : Ambient) : ∃ p a', perform (build h sources) a = (.ok p, a') := by
  obtain ⟨overlay, a', hdecrypt⟩ := exists_decrypt hall a
  refine ⟨⟨sources, overlay⟩, a', ?_⟩
  rw [build, perform_bind, hdecrypt]
  rfl

/-! ## Items -/

theorem map_fst_items {ks : List String} (hfound : ∀ k ∈ ks, (p.find? k).isSome) :
    (ks.filterMap fun k => (p.find? k).map fun v => (k, v)).map Prod.fst = ks := by
  induction ks with
  | nil => rfl
  | cons k ks ih =>
      obtain ⟨v, hv⟩ := Option.isSome_iff_exists.mp (hfound k List.mem_cons_self)
      rw [List.filterMap_cons, hv]
      exact congrArg (k :: ·) (ih fun j hj => hfound j (List.mem_cons_of_mem k hj))

theorem lookup_items (ks : List String) (k : String) :
    (ks.filterMap fun k => (p.find? k).map fun v => (k, v)).lookup k =
      if k ∈ ks then p.find? k else none := by
  induction ks with
  | nil => rfl
  | cons j ks ih =>
      rw [List.filterMap_cons]
      by_cases hkj : k = j
      · subst hkj
        rw [if_pos List.mem_cons_self]
        cases hk : p.find? k with
        | none =>
            dsimp only [Option.map_none]
            rw [ih, hk, ite_self]
        | some v => simp
      · have hmem : k ∈ j :: ks ↔ k ∈ ks := by simp [hkj]
        cases p.find? j with
        | none =>
            dsimp only [Option.map_none]
            simp only [ih, hmem]
        | some v =>
            dsimp only [Option.map_some]
            rw [List.lookup_cons, beq_false_of_ne hkj]
            simp only [ih, hmem]

/-! ## The merged dictionary -/

theorem isSome_find?_iff (hp : perform (build h sources) a = (.ok p, a')) (k : String) :
    (p.find? k).isSome ↔ k ∈ p.keys := by
  rw [keys_eq_names, (sources_of_build hp).1, mem_names_iff]
  have hrel := find?_of_build hp k
  generalize owner? sources k = owner, p.find? k = found at hrel
  cases hrel <;> simp

theorem contains_iff (p : PropertyView) (k : String) : p.contains k = true ↔ k ∈ p.keys := by
  rw [keys_eq_names, names, List.mem_eraseDups, List.mem_flatMap, contains, List.any_eq_true]
  simp only [Dictionary.mem_keys_iff, Dictionary.contains]

theorem find?_of_items {d : Dictionary Value} (hp : perform (build h sources) a = (.ok p, a'))
    (hd : d.entries = p.items) (k : String) : d.find? k = p.find? k := by
  rw [Dictionary.find?, hd, items, lookup_items]
  split
  · rfl
  · rename_i hk
    rw [← isSome_find?_iff hp, Option.not_isSome_iff_eq_none] at hk
    exact hk.symm

theorem presents_of_items {d : Dictionary Value} (hp : perform (build h sources) a = (.ok p, a'))
    (hd : d.entries = p.items) (hkeys : d.keys = p.keys) : p.Presents d where
  get k := by
    rw [find?_of_items hp hd]
    rfl
  getD k default := by rw [getD, find?_of_items hp hd]
  contains k := by rw [contains_iff, hkeys]
  keys := hkeys.symm
  size := by rw [size, hkeys]
  items := hd.symm
  equals d' := by
    rw [← Dictionary.equals_iff, hd]
    rfl
  mixed entries := by
    rintro ⟨e, he, hkey⟩
    rw [equals, ← hd]
    exact Dictionary.equals_mixed he hkey
  unequal v hv := by
    cases v with
    | dict entries => exact absurd rfl (hv entries)
    | _ => rfl

theorem mem_decryptedKeys_iff (hp : perform (build h sources) a = (.ok p, a')) (k : String) :
    k ∈ p.decryptedKeys ↔ ∃ v, owner? sources k = some v ∧ h.isMarked v = true := by
  obtain ⟨-, a₁, hd⟩ := sources_of_build hp
  have hover := lookup_overlay hd k
  have hmem : k ∈ p.decryptedKeys ↔ (p.overlay.lookup k).isSome := by
    rw [decryptedKeys, sortNames, List.mem_mergeSort, List.lookup_isSome_iff]
    simp
  rw [hmem]
  generalize p.overlay.lookup k = found at hover ⊢
  cases howner : owner? sources k with
  | none =>
      rw [howner] at hover
      cases hover
      simp
  | some v =>
      rw [howner, Option.bind_some] at hover
      cases hv : h.marked? v <;> rw [hv] at hover <;> cases hover <;> simp [Handler.isMarked, hv]

/-- A view that has been built answers every question as the merged dictionary does, and what it
counts as decrypted are the names whose owning values are marked. -/
theorem build_presents_merged (h : Handler) (sources : List Source) (a a' : Ambient)
    (p : PropertyView) (hp : perform (build h sources) a = (.ok p, a')) :
    ∃ d : Dictionary Value, Merges h sources d ∧ p.Presents d ∧
      ∀ k, k ∈ p.decryptedKeys ↔ ∃ v, owner? sources k = some v ∧ h.isMarked v = true := by
  have hfst : p.items.map Prod.fst = p.keys :=
    map_fst_items fun k hk => (isSome_find?_iff hp k).mpr hk
  let d : Dictionary Value := ⟨p.items, hfst ▸ nodup_keys p⟩
  have hsources := (sources_of_build hp).1
  refine ⟨d, ⟨?_, ?_⟩, presents_of_items hp rfl hfst, mem_decryptedKeys_iff hp⟩
  · rw [← hsources, ← keys_eq_names]
    exact hfst
  · intro k v hv
    have hrel := find?_of_build hp k
    rw [hv] at hrel
    rw [find?_of_items hp rfl]
    generalize p.find? k = found at hrel
    cases hrel with
    | some hyields => exact ⟨_, rfl, hyields⟩

/-- A marked value under a name that another source has plain, and a name whose owner is plain while
a broken envelope hides behind it. -/
theorem build_presents_merged_shadowed :
    let h : Handler :=
      { cipher := { key := ⟨List.replicate 32 0, by decide⟩ }, marker := Handler.standardMarker }
    let envelope := Envelope.close h.cipher.key (List.replicate 12 7) (Utf8.encode "hush")
    let sources : List Source :=
      [⟨[("user", .text "ada"), ("password", .text (h.marker ++ Base64.encode envelope))],
        by decide⟩,
       ⟨[("password", .text "old"), ("user", .text (h.marker ++ "AAAA"))], by decide⟩]
    let a : Ambient := ⟨.ofBytes [], .ofBytes [], []⟩
    ∃ p a', perform (build h sources) a = (.ok p, a') ∧
      ∃ d : Dictionary Value, Merges h sources d ∧ p.Presents d ∧
        ∀ k, k ∈ p.decryptedKeys ↔ ∃ v, owner? sources k = some v ∧ h.isMarked v = true := by
  intro h envelope sources a
  have hopens : (h.cipher.decryptText (.text (Base64.encode envelope))).Yields "hush" :=
    Cipher.perform_decryptText_encode rfl (by decide) "hush"
  have hall : ∀ k v encoded, owner? sources k = some v → h.marked? v = some encoded →
      ∃ s, (h.cipher.decryptText encoded).Yields s := by
    intro k v encoded howner hv
    rw [← lookup_flatMap_entries] at howner
    by_cases huser : k = "user"
    · subst huser
      obtain rfl : Value.text "ada" = v := Option.some.inj howner
      have hplain : h.marked? (.text "ada") = none := by decide
      rw [hplain] at hv
      cases hv
    · by_cases hpassword : k = "password"
      · subst hpassword
        obtain rfl : Value.text (h.marker ++ Base64.encode envelope) = v := Option.some.inj howner
        rw [Handler.marked?_append] at hv
        exact ⟨"hush", Option.some.inj hv ▸ hopens⟩
      · simp [sources, List.lookup_cons, beq_false_of_ne huser, beq_false_of_ne hpassword] at howner
  obtain ⟨p, a', hbuild⟩ := exists_build hall a
  exact ⟨p, a', hbuild, build_presents_merged h sources a a' p hbuild⟩

end PropertyView

end Strongbox
