import Strongbox.Proofs.Properties.View
import Strongbox.Proofs.TextEnvelope

/-! # What decrypting properties comes to

Either every marked value that owns its name decrypts, and the texts stand under these names in the
order in which the names first appear, or the first that does not decrypt ends it with its failure.
Values behind an earlier source have no part in either. -/

namespace Strongbox

namespace Properties

variable {h : Handler} {sources before after : List Source} {k : String} {a a' : Ambient}

/-! ## Owners in the order of their names -/

theorem not_mem_of_mem_distinct {seen ks : List String} (hk : k ∈ PropertyView.distinct seen ks) :
    k ∉ seen := by
  rw [PropertyView.distinct_eq_eraseDups, List.mem_eraseDups, List.mem_filter] at hk
  exact of_decide_eq_true hk.2

theorem unseen_eq_filterMap (seen : List String) (entries : List (String × Value)) :
    unseen seen entries =
      (PropertyView.distinct seen (entries.map Prod.fst)).filterMap fun k =>
        (entries.lookup k).map (k, ·) := by
  induction entries generalizing seen with
  | nil => rfl
  | cons e rest ih =>
      obtain ⟨k, v⟩ := e
      have hrest : ∀ seen', k ∈ seen' → unseen seen' rest =
          (PropertyView.distinct seen' (rest.map Prod.fst)).filterMap fun j =>
            (((k, v) :: rest).lookup j).map (j, ·) := by
        intro seen' hk
        rw [ih]
        refine List.filterMap_congr fun j hj => ?_
        have hne : j ≠ k := fun heq => not_mem_of_mem_distinct hj (heq ▸ hk)
        rw [List.lookup_cons, beq_false_of_ne hne]
      rw [unseen, List.map_cons, PropertyView.distinct]
      by_cases hk : k ∈ seen
      · rw [if_pos hk, if_pos hk, hrest seen hk]
      · rw [if_neg hk, if_neg hk, hrest (k :: seen) List.mem_cons_self, List.filterMap_cons,
          List.lookup_cons, beq_self_eq_true]
        rfl

/-- What follows the marker in the value that owns a name, if that value is marked. -/
def encoded? (h : Handler) (sources : List Source) (k : String) : Option Value :=
  (owner? sources k).bind h.marked?

def ownsMarked (h : Handler) (sources : List Source) (k : String) : Bool :=
  (encoded? h sources k).isSome

/-- The names whose owning values are marked, each with what follows the marker. -/
def encodings (h : Handler) (sources : List Source) (ks : List String) :
    List (String × Value) :=
  ks.filterMap fun k => (encoded? h sources k).map (k, ·)

theorem ownsMarked_iff :
    ownsMarked h sources k = true ↔ ∃ v, owner? sources k = some v ∧ h.isMarked v = true := by
  rw [ownsMarked, encoded?, Option.isSome_bind, Option.any_eq_true]
  rfl

theorem mem_encodings_iff {ks : List String} {e : String × Value} :
    e ∈ encodings h sources ks ↔ e.1 ∈ ks ∧ encoded? h sources e.1 = some e.2 := by
  rw [encodings, List.mem_filterMap]
  constructor
  · rintro ⟨k, hk, he⟩
    obtain ⟨encoded, hencoded, rfl⟩ := Option.map_eq_some_iff.mp he
    exact ⟨hk, hencoded⟩
  · rintro ⟨hk, hencoded⟩
    exact ⟨e.1, hk, by rw [hencoded]; rfl⟩

theorem decryptEntries_eq_mapM_encodings (h : Handler) (sources : List Source) :
    decryptEntries h [] (sources.flatMap Dictionary.entries) =
      (encodings h sources (names sources)).mapM (decryptEntry h) := by
  have hnames : PropertyView.distinct [] ((sources.flatMap Dictionary.entries).map Prod.fst) =
      names sources := by
    rw [PropertyView.distinct_eq_eraseDups, List.map_flatMap, names]
    simp only [List.not_mem_nil, not_false_eq_true, decide_true, List.filter_true]
    rfl
  rw [decryptEntries_eq_mapM, unseen_eq_filterMap, hnames, List.filterMap_filterMap, encodings]
  congr 1
  refine List.filterMap_congr fun k _ => ?_
  rw [lookup_flatMap_entries, encoded?]
  cases owner? sources k <;> rfl

/-! ## Entries -/

theorem yields_decryptText_iff {v encoded : Value} {s : String} (hv : h.marked? v = some encoded)
    (a : Ambient) :
    perform (h.decryptText v) a = (.ok (.text s), a) ↔ (h.cipher.decryptText encoded).Yields s := by
  constructor
  · intro hs
    rw [Handler.decryptText, hv] at hs
    obtain ⟨s', a₁, hfirst, hpure⟩ := Task.perform_bind_eq_ok_iff.mp hs
    obtain rfl := Value.text.inj (Except.ok.inj (Prod.mk.inj hpure).1)
    exact (h.cipher.steady_decryptText _ a s' a₁ hfirst).1
  · exact fun hs => Handler.yields_decryptText_of_marked hv hs a

theorem perform_bind_pure_eq_error_iff {α β : Type} {t : Task α} {f : α → β} {e : Abort} :
    perform (t >>= fun x => pure (f x)) a = (.error e, a') ↔ perform t a = (.error e, a') := by
  rw [perform_bind]
  cases perform t a with
  | mk r a₁ => cases r <;> simp

theorem decryptText_eq_error_iff {v encoded : Value} {e : Abort}
    (hv : h.marked? v = some encoded) :
    perform (h.decryptText v) a = (.error e, a') ↔
      perform (h.cipher.decryptText encoded) a = (.error e, a') := by
  rw [Handler.decryptText, hv]
  exact perform_bind_pure_eq_error_iff

/-- One after the other, the marked owners among some names give the entries of an overlay. -/
theorem forall₂_encodings_iff {ks : List String} {overlay : List (String × String)} :
    List.Forall₂ (fun e e' => (decryptEntry h e).Yields e') (encodings h sources ks) overlay ↔
      overlay.map Prod.fst = ks.filter (ownsMarked h sources) ∧
        ∀ e ∈ overlay, ∃ encoded, encoded? h sources e.1 = some encoded ∧
          (h.cipher.decryptText encoded).Yields e.2 := by
  induction ks generalizing overlay with
  | nil =>
      rw [encodings, List.filterMap_nil, List.forall₂_nil_left_iff, List.filter_nil,
        List.map_eq_nil_iff]
      exact ⟨fun h => ⟨h, h ▸ nofun⟩, And.left⟩
  | cons k ks ih =>
      rw [encodings, List.filterMap_cons, List.filter_cons, ownsMarked]
      cases hk : encoded? h sources k with
      | none => exact ih
      | some encoded =>
          dsimp only [Option.map_some, Option.isSome_some]
          rw [List.forall₂_cons_left_iff, if_pos rfl]
          constructor
          · rintro ⟨e, rest, he, hrest, rfl⟩
            obtain ⟨hfst, hyields⟩ := decryptEntry_yields_iff.mp he
            obtain ⟨hnames, hall⟩ := ih.mp hrest
            rw [List.map_cons, hnames, hfst, List.forall_mem_cons, hfst]
            exact ⟨rfl, ⟨encoded, hk, hyields⟩, hall⟩
          · rintro ⟨hnames, hall⟩
            obtain ⟨e, rest, rfl, rfl, hrest⟩ := List.map_eq_cons_iff.mp hnames
            obtain ⟨⟨encoded', hencoded, hyields⟩, hall⟩ := List.forall_mem_cons.mp hall
            obtain rfl := Option.some.inj (hk.symm.trans hencoded)
            exact ⟨e, rest, decryptEntry_yields_iff.mpr ⟨rfl, hyields⟩, ih.mpr ⟨hrest, hall⟩, rfl⟩

/-! ## Outcomes -/

/-- The result of decrypting the properties of the sources in the state `a`, and the state after
it. -/
inductive DecryptOutcome (h : Handler) (sources : List Source) (a : Ambient) :
    Except Abort (List (String × String)) → Ambient → Prop
  | decrypted (overlay : List (String × String)) (sorted : List String) :
      overlay.map Prod.fst = (names sources).filter (ownsMarked h sources) →
      (∀ e ∈ overlay, ∃ v, owner? sources e.1 = some v ∧
        perform (h.decryptText v) a = (.ok (.text e.2), a)) →
      sorted.Perm (overlay.map Prod.fst) → sorted.Pairwise (· ≤ ·) →
      DecryptOutcome h sources a (.ok overlay)
        (if overlay = [] then a
          else a.record .debug s!"Decrypted properties: {Value.quotedNames sorted}")
  | refused (front : List String) (k : String) (back : List String) (v : Value) (e : Abort)
      (a' : Ambient) :
      names sources = front ++ k :: back →
      (∀ j ∈ front, ∀ w, owner? sources j = some w → h.isMarked w = true →
        ∃ s, perform (h.decryptText w) a = (.ok (.text s), a)) →
      owner? sources k = some v → h.isMarked v = true →
      perform (h.decryptText v) a = (.error e, a') →
      DecryptOutcome h sources a (.error e) a'

theorem pairwise_sortNames (ks : List String) : (sortNames ks).Pairwise (· ≤ ·) := by
  have hsort : (sortNames ks).Pairwise fun a b => decide (a ≤ b) = true := by
    refine List.pairwise_mergeSort (fun a b c hab hbc => ?_) (fun a b => ?_) ks
    · exact decide_eq_true (String.le_trans (of_decide_eq_true hab) (of_decide_eq_true hbc))
    · rw [Bool.or_eq_true, decide_eq_true_iff, decide_eq_true_iff]
      exact String.le_total a b
  exact hsort.imp of_decide_eq_true

/-- The names are listed as they are when they are put in order. -/
theorem noted_eq {overlay : List (String × String)} {sorted : List String}
    (hperm : sorted.Perm (overlay.map Prod.fst)) (hsorted : sorted.Pairwise (· ≤ ·)) (a : Ambient) :
    noted overlay a = if overlay = [] then a
      else a.record .debug s!"Decrypted properties: {Value.quotedNames sorted}" := by
  have hsort : (sortNames (overlay.map Prod.fst)).Pairwise (· ≤ ·) :=
    pairwise_sortNames _
  have heq : sortNames (overlay.map Prod.fst) = sorted :=
    List.Perm.eq_of_pairwise (fun _ _ _ _ => String.le_antisymm) hsort hsorted
      ((List.mergeSort_perm _ _).trans hperm.symm)
  rw [noted, heq]
  cases overlay <;> rfl

theorem encoded?_eq_some_iff {encoded : Value} :
    encoded? h sources k = some encoded ↔
      ∃ v, owner? sources k = some v ∧ h.marked? v = some encoded :=
  Option.bind_eq_some_iff

theorem encodings_yield_iff {ks : List String} (a : Ambient) :
    (∀ e ∈ encodings h sources ks, ∃ e', (decryptEntry h e).Yields e') ↔
      ∀ k ∈ ks, ∀ v, owner? sources k = some v → h.isMarked v = true →
        ∃ s, perform (h.decryptText v) a = (.ok (.text s), a) := by
  constructor
  · intro hall k hk v howner hmarked
    obtain ⟨encoded, hv⟩ := Option.isSome_iff_exists.mp hmarked
    have hencoded := encoded?_eq_some_iff.mpr ⟨v, howner, hv⟩
    obtain ⟨e', he'⟩ := hall (k, encoded) (mem_encodings_iff.mpr ⟨hk, hencoded⟩)
    exact ⟨e'.2, (yields_decryptText_iff hv a).mpr (decryptEntry_yields_iff.mp he').2⟩
  · intro hall e he
    obtain ⟨hk, hencoded⟩ := mem_encodings_iff.mp he
    obtain ⟨v, howner, hv⟩ := encoded?_eq_some_iff.mp hencoded
    obtain ⟨s, hs⟩ := hall e.1 hk v howner (Option.isSome_iff_exists.mpr ⟨e.2, hv⟩)
    exact ⟨(e.1, s), decryptEntry_yields_iff.mpr ⟨rfl, (yields_decryptText_iff hv a).mp hs⟩⟩

theorem decryptEntry_eq_error_iff {e : String × Value} {abort : Abort} :
    perform (decryptEntry h e) a = (.error abort, a') ↔
      perform (h.cipher.decryptText e.2) a = (.error abort, a') :=
  perform_bind_pure_eq_error_iff

/-- What comes of it is an outcome. -/
theorem decryptOutcome_perform (h : Handler) (sources : List Source) (a : Ambient) :
    DecryptOutcome h sources a (perform (decrypt h sources) a).1
      (perform (decrypt h sources) a).2 := by
  rw [perform_decrypt, decryptEntries_eq_mapM_encodings]
  obtain hall | ⟨front, e, back, abort, a', hsplit, hfront, he⟩ :=
    Task.forall_yields_or_first_error (steady_decryptEntry h) (encodings h sources (names sources)) a
  · obtain ⟨overlay, hoverlay⟩ := exists_forall₂ hall
    rw [Task.yields_mapM hoverlay a]
    have hsorted := pairwise_sortNames (overlay.map Prod.fst)
    have hperm : (sortNames (overlay.map Prod.fst)).Perm (overlay.map Prod.fst) :=
      List.mergeSort_perm _ _
    obtain ⟨hnames, hentries⟩ := forall₂_encodings_iff.mp hoverlay
    dsimp only
    rw [noted_eq hperm hsorted]
    refine .decrypted overlay _ hnames (fun e he => ?_) hperm hsorted
    obtain ⟨encoded, hencoded, hyields⟩ := hentries e he
    obtain ⟨v, howner, hv⟩ := encoded?_eq_some_iff.mp hencoded
    exact ⟨v, howner, (yields_decryptText_iff hv a).mpr hyields⟩
  · rw [hsplit, Task.perform_mapM_of_error hfront he]
    obtain ⟨before, after, hnames, rfl, hrest⟩ := List.filterMap_eq_append_iff.mp hsplit
    obtain ⟨plain, k, after, rfl, hplain, hk, -⟩ := List.filterMap_eq_cons_iff.mp hrest
    obtain ⟨encoded, hencoded, rfl⟩ := Option.map_eq_some_iff.mp hk
    obtain ⟨v, howner, hv⟩ := encoded?_eq_some_iff.mp hencoded
    rw [decryptEntry_eq_error_iff] at he
    refine .refused (before ++ plain) k after v abort a' ?_ ?_ howner
      (Option.isSome_iff_exists.mpr ⟨encoded, hv⟩) ((decryptText_eq_error_iff hv).mpr he)
    · rw [hnames, List.append_assoc]
    · rw [← encodings_yield_iff, encodings, List.filterMap_append,
        List.filterMap_eq_nil_iff.mpr hplain, List.append_nil]
      exact hfront

/-- No other outcome is possible. -/
theorem perform_decrypt_of_decryptOutcome {r : Except Abort (List (String × String))}
    (ho : DecryptOutcome h sources a r a') : perform (decrypt h sources) a = (r, a') := by
  rw [perform_decrypt, decryptEntries_eq_mapM_encodings]
  cases ho with
  | decrypted overlay sorted hnames hentries hperm hsorted =>
      have hoverlay : List.Forall₂ (fun e e' => (decryptEntry h e).Yields e')
          (encodings h sources (names sources)) overlay := by
        refine forall₂_encodings_iff.mpr ⟨hnames, fun e he => ?_⟩
        have hmarked : ownsMarked h sources e.1 = true := by
          have hmem := List.mem_map_of_mem (f := Prod.fst) he
          rw [hnames, List.mem_filter] at hmem
          exact hmem.2
        obtain ⟨v, howner, hs⟩ := hentries e he
        obtain ⟨v', howner', hv'⟩ := ownsMarked_iff.mp hmarked
        obtain rfl := Option.some.inj (howner.symm.trans howner')
        obtain ⟨encoded, hv⟩ := Option.isSome_iff_exists.mp hv'
        exact ⟨encoded, encoded?_eq_some_iff.mpr ⟨v, howner, hv⟩, (yields_decryptText_iff hv a).mp hs⟩
      rw [Task.yields_mapM hoverlay a, ← noted_eq hperm hsorted]
  | refused front k back v e a' hnames hfront howner hmarked he =>
      obtain ⟨encoded, hv⟩ := Option.isSome_iff_exists.mp hmarked
      have hsplit : encodings h sources (names sources) =
          encodings h sources front ++ (k, encoded) :: encodings h sources back := by
        rw [hnames, encodings, List.filterMap_append, List.filterMap_cons,
          encoded?_eq_some_iff.mpr ⟨v, howner, hv⟩]
        rfl
      have hentry : perform (decryptEntry h (k, encoded)) a = (.error e, a') :=
        decryptEntry_eq_error_iff.mpr ((decryptText_eq_error_iff hv).mp he)
      rw [hsplit, Task.perform_mapM_of_error ((encodings_yield_iff a).mpr hfront) hentry]

/-! ## Hidden values -/

/-- The entries of a source under names that no earlier source has. -/
def visible (before : List Source) (source : Source) : List (String × Value) :=
  source.entries.filter fun e => e.1 ∉ names before

theorem unseen_congr {seen seen' : List String} (hseen : ∀ k, k ∈ seen ↔ k ∈ seen')
    (entries : List (String × Value)) : unseen seen entries = unseen seen' entries := by
  induction entries generalizing seen seen' with
  | nil => rfl
  | cons e rest ih =>
      have hcons : ∀ k, k ∈ e.1 :: seen ↔ k ∈ e.1 :: seen' := by simp [hseen]
      simp only [unseen, hseen e.1, ih hseen, ih hcons]

theorem unseen_append (seen : List String) (front back : List (String × Value)) :
    unseen seen (front ++ back) =
      unseen seen front ++ unseen (front.map Prod.fst ++ seen) back := by
  induction front generalizing seen with
  | nil => rfl
  | cons e rest ih =>
      rw [List.cons_append, unseen, unseen, ih, ih, List.map_cons]
      split
      · rename_i he
        congr 1
        refine unseen_congr (fun k => ?_) back
        simp only [List.cons_append, List.mem_cons, List.mem_append]
        constructor
        · exact .inr
        · rintro (rfl | hk)
          · exact .inr he
          · exact hk
      · rw [List.cons_append]
        congr 2
        refine unseen_congr (fun k => ?_) back
        simp only [List.cons_append, List.mem_cons, List.mem_append]
        exact or_left_comm

/-- Entries whose names have been seen may be left out. -/
theorem unseen_filter {seen : List String} {p : String × Value → Bool}
    (hp : ∀ e, p e = false → e.1 ∈ seen) (entries : List (String × Value)) :
    unseen seen (entries.filter p) = unseen seen entries := by
  induction entries generalizing seen with
  | nil => rfl
  | cons e rest ih =>
      rw [List.filter_cons]
      cases he : p e with
      | false =>
          rw [if_neg Bool.false_ne_true, unseen, if_pos (hp e he), ih hp]
      | true =>
          have hp' : ∀ e', p e' = false → e'.1 ∈ e.1 :: seen := fun e' he' =>
            List.mem_cons_of_mem _ (hp e' he')
          rw [if_pos rfl, unseen, unseen, ih hp, ih hp']

/-- What a later source holds under names that earlier ones have makes no difference. -/
theorem decrypt_eq_of_visible_eq (h : Handler) {later later' : Source}
    (hvisible : visible before later = visible before later') (after : List Source) :
    decrypt h (before ++ later :: after) = decrypt h (before ++ later' :: after) := by
  have hfilter : ∀ source : Source,
      unseen [] ((before ++ source :: after).flatMap Dictionary.entries) =
        unseen [] (before.flatMap Dictionary.entries) ++
          unseen (before.flatMap Dictionary.keys) (visible before source ++
            (after.flatMap Dictionary.entries).filter fun e => e.1 ∉ names before) := by
    intro source
    have hseen : ∀ e : String × Value, decide (e.1 ∉ names before) = false →
        e.1 ∈ before.flatMap Dictionary.keys := by
      intro e he
      rw [decide_eq_false_iff_not, not_not, names, List.mem_eraseDups] at he
      exact he
    rw [visible, ← List.filter_append, unseen_filter hseen, List.flatMap_append, List.flatMap_cons,
      unseen_append, List.append_nil, List.map_flatMap]
    rfl
  rw [decrypt, decrypt, decryptEntries_eq_mapM, decryptEntries_eq_mapM, hfilter, hfilter, hvisible]

/-- A hidden value may be replaced by another one. -/
theorem visible_insert (hk : k ∈ names before) (later : Source) (v : Value) :
    visible before (later.insert k v) = visible before later := by
  rw [visible, visible, Dictionary.entries_insert]
  exact AssocList.filter_put (fun _ => by simpa using hk) v later.entries

/-- A hidden value may be removed. -/
theorem visible_of_remove (hk : k ∈ names before) {later later' : Source}
    (hentries : later'.entries = AssocList.remove k later.entries) :
    visible before later' = visible before later := by
  rw [visible, visible, hentries]
  exact AssocList.filter_remove (fun _ => by simpa using hk) later.entries

/-- Decrypting properties comes to one outcome and no other: the texts of all the marked values that
own their names, or the failure of the first that does not decrypt. Changes to the values that an
earlier source hides do not show. -/
theorem decrypt_outcome (h : Handler) (sources : List Source) (a : Ambient) :
    (∀ r a', perform (decrypt h sources) a = (r, a') ↔ DecryptOutcome h sources a r a') ∧
    (h.cipher.fault = none → ∀ e a', DecryptOutcome h sources a (.error e) a' →
      e = .failure .decryption ∨ ∃ n < 28, e = .failure (.tooShort n)) ∧
    (∀ before later later' after, sources = before ++ later :: after →
      visible before later = visible before later' →
        perform (decrypt h (before ++ later' :: after)) a = perform (decrypt h sources) a) := by
  refine ⟨fun r a' => ⟨?_, perform_decrypt_of_decryptOutcome⟩, ?_, ?_⟩
  · intro hperform
    have ho := decryptOutcome_perform h sources a
    rwa [hperform] at ho
  · intro hfault e a' ho
    cases ho with
    | refused front k back v e a' hnames hfront howner hmarked he =>
        obtain ⟨encoded, hv⟩ := Option.isSome_iff_exists.mp hmarked
        have hfailed := (decryptText_eq_error_iff hv).mp he
        obtain ⟨s, -, rfl⟩ | ⟨t, -, rfl⟩ := Handler.of_marked? hv
        · have htext := Cipher.textOutcome_perform hfault s a
          rw [hfailed] at htext
          exact htext.failure rfl
        · exact .inl (Except.error.inj (Prod.mk.inj hfailed).1).symm
  · rintro before later later' after rfl hvisible
    rw [decrypt_eq_of_visible_eq h hvisible after]

/-- A source with an envelope that is too short ends it, whatever the next source has behind it. -/
theorem decrypt_outcome_hidden :
    let h : Handler :=
      { cipher := { key := ⟨List.replicate 32 0, by decide⟩ }, marker := Handler.standardMarker }
    let first : Source :=
      ⟨[("user", .text "ada"), ("password", .text (h.marker ++ "AAAA"))], by decide⟩
    let later : Source := ⟨[("user", .text (h.marker ++ "?")), ("token", .text h.marker)], by decide⟩
    let later' : Source := ⟨[("token", .text h.marker)], by decide⟩
    let a : Ambient := ⟨.ofBytes [], .ofBytes [], []⟩
    perform (decrypt h [first, later]) a = (.error (.failure (.tooShort 3)), a) ∧
      perform (decrypt h [first, later.insert "user" .null]) a =
        (.error (.failure (.tooShort 3)), a) ∧
      perform (decrypt h [first, later']) a = (.error (.failure (.tooShort 3)), a) := by
  intro h first later later' a
  obtain ⟨houtcome, -, hhidden⟩ := decrypt_outcome h [first, later] a
  have hfirst : perform (decrypt h [first, later]) a = (.error (.failure (.tooShort 3)), a) := by
    refine (houtcome _ a).mpr (.refused ["user"] "password" ["token"] _ _ a (by decide) ?_ rfl
      (by decide) ?_)
    · intro j hj w howner hmarked
      obtain rfl := List.mem_singleton.mp hj
      obtain rfl : Value.text "ada" = w := Option.some.inj howner
      exact absurd hmarked (by decide)
    · have hopened := Handler.perform_decryptText_append (h := h) "AAAA" a
      rw [Cipher.perform_decryptText_of_error (e := [0, 0, 0]) (by decide)
        (Cipher.perform_decrypt_of_length_lt (by decide) a)] at hopened
      exact hopened
  have huser : "user" ∈ names [first] := by decide
  refine ⟨hfirst, ?_, ?_⟩
  · rw [← hfirst]
    exact hhidden [first] later _ [] rfl (visible_insert huser later .null).symm
  · rw [← hfirst]
    exact hhidden [first] later later' [] rfl (visible_of_remove huser rfl).symm

end Properties

end Strongbox
