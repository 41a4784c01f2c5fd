import Strongbox.Proofs.Properties.Outcome
import Strongbox.Proofs.Secrecy.Conversions

/-! # Properties keep their values

Names are told and values are not: what is logged and shown of properties depends on the names whose
owning values are marked, and on the checks that these values pass or fail until one fails. -/

namespace Strongbox

open Properties

/-- Sources of the same names whose owners are marked alike. Marked owners are compared as long as
all before them pass their checks, for no other is looked at. -/
structure Properties.Alike (Q : Handler → Handler → Conversion → Value → Value → Prop)
    (h h' : Handler) (sources sources' : List Source) : Prop where
  size : sources.length = sources'.length
  names : names sources = names sources'
  marked : ∀ k, ownsMarked h sources k = ownsMarked h' sources' k
  owners : ∀ front k back v v', Properties.names sources = front ++ k :: back →
    (∀ j ∈ front, ∀ w, owner? sources j = some w → h.failedCheck? .decryptText w = none) →
    owner? sources k = some v → owner? sources' k = some v' → h.isMarked v = true →
    Q h h' .decryptText v v'

namespace Properties

variable {h h' : Handler} {sources sources' : List Source}

theorem decryptEntry_of_failed {k : String} {v encoded : Value} {check : Check}
    (hv : h.marked? v = some encoded) (hfailed : h.failedCheck? .decryptText v = some check) :
    decryptEntry h (k, encoded) =
      check.refuse h.cipher.fault ((h.openedSize? .decryptText v).getD 0) := by
  obtain ⟨inside, hinside⟩ := Handler.encodedEnvelope_of_marked hv
  rw [Handler.failedCheck?, hv, Option.bind_some, Cipher.envelopeIn?_of_ok hinside] at hfailed
  rw [decryptEntry, Cipher.decryptText_of_failed hinside hfailed, Check.refuse_bind,
    Handler.openedSize?, hv, Option.bind_some, Cipher.envelopeIn?_of_ok hinside]

theorem decryptEntry_of_passed {v encoded : Value} (hv : h.marked? v = some encoded)
    (hpassed : h.failedCheck? .decryptText v = none) (k : String) :
    ∃ t, decryptEntry h (k, encoded) = pure (k, t) := by
  obtain ⟨inside, hinside⟩ := Handler.encodedEnvelope_of_marked hv
  rw [Handler.failedCheck?, hv, Option.bind_some, Cipher.envelopeIn?_of_ok hinside] at hpassed
  obtain ⟨t, ht⟩ := Cipher.decryptText_of_passed hinside hpassed
  rw [decryptEntry, ht]
  exact ⟨t, rfl⟩

/-- A name owns marked values on both sides or on neither. -/
theorem encoded?_agrees {Q : Handler → Handler → Conversion → Value → Value → Prop}
    (hs : Alike Q h h' sources sources') (k : String) :
    (encoded? h sources k = none ∧ encoded? h' sources' k = none) ∨
      ∃ encoded encoded', encoded? h sources k = some encoded ∧
        encoded? h' sources' k = some encoded' := by
  have hmarked := hs.marked k
  rw [ownsMarked, ownsMarked] at hmarked
  cases hencoded : encoded? h sources k with
  | none =>
      rw [hencoded] at hmarked
      exact .inl ⟨rfl, Option.not_isSome_iff_eq_none.mp (hmarked ▸ Bool.false_ne_true)⟩
  | some encoded =>
      rw [hencoded] at hmarked
      obtain ⟨encoded', hencoded'⟩ := Option.isSome_iff_exists.mp hmarked.symm
      exact .inr ⟨encoded, encoded', rfl, hencoded'⟩

theorem failedCheck?_of_unmarked {k : String} {w : Value} (hencoded : encoded? h sources k = none)
    (howner : owner? sources k = some w) : h.failedCheck? .decryptText w = none := by
  rw [encoded?, howner] at hencoded
  rw [Handler.failedCheck?, show h.marked? w = none from hencoded]
  rfl

/-- Entries of measured values are both decrypted, or refused alike. -/
theorem decryptEntry_agrees (hh : h.Alike h') {v v' encoded encoded' : Value}
    (hv : h.marked? v = some encoded) (hv' : h'.marked? v' = some encoded')
    (hm : Measured h h' .decryptText v v') (k : String) :
    (h.failedCheck? .decryptText v = none ∧ ∃ t t', decryptEntry h (k, encoded) = pure (k, t) ∧
        decryptEntry h' (k, encoded') = pure (k, t')) ∨
      Paired Ambient.Alike (fun _ _ => False) (decryptEntry h (k, encoded))
        (decryptEntry h' (k, encoded')) := by
  cases hcheck : h.failedCheck? .decryptText v with
  | none =>
      obtain ⟨t, ht⟩ := decryptEntry_of_passed hv hcheck k
      obtain ⟨t', ht'⟩ := decryptEntry_of_passed hv' (hm.checks ▸ hcheck) k
      exact .inl ⟨rfl, t, t', ht, ht'⟩
  | some check =>
      rw [decryptEntry_of_failed hv hcheck, decryptEntry_of_failed hv' (hm.checks ▸ hcheck),
        Handler.refuse_openedSize hh hm hcheck]
      exact .inr (check.refuse_paired _ _)

/-- By induction on the names still to come, all before which pass their checks. -/
theorem decryptEntries_paired (hh : h.Alike h') (hs : Alike Measured h h' sources sources')
    (front ks : List String) (hks : names sources = front ++ ks)
    (hfront : ∀ j ∈ front, ∀ w, owner? sources j = some w → h.failedCheck? .decryptText w = none) :
    Paired Ambient.Alike (fun d d' => d.map Prod.fst = d'.map Prod.fst)
      ((encodings h sources ks).mapM (decryptEntry h))
      ((encodings h' sources' ks).mapM (decryptEntry h')) := by
  induction ks generalizing front with
  | nil => exact .pure rfl
  | cons k ks ih =>
      have hrest : (∀ w, owner? sources k = some w → h.failedCheck? .decryptText w = none) →
          Paired Ambient.Alike (fun d d' => d.map Prod.fst = d'.map Prod.fst)
            ((encodings h sources ks).mapM (decryptEntry h))
            ((encodings h' sources' ks).mapM (decryptEntry h')) := by
        intro hk
        refine ih (front ++ [k]) (by rw [hks, List.append_assoc]; rfl) fun j hj => ?_
        rcases List.mem_append.mp hj with hj | hj
        · exact hfront j hj
        · exact List.mem_singleton.mp hj ▸ hk
      rw [encodings, encodings, List.filterMap_cons, List.filterMap_cons]
      obtain ⟨hencoded, hencoded'⟩ | ⟨encoded, encoded', hencoded, hencoded'⟩ := encoded?_agrees hs k
      · rw [hencoded, hencoded']
        exact hrest fun w hw => failedCheck?_of_unmarked hencoded hw
      · obtain ⟨v, howner, hv⟩ := encoded?_eq_some_iff.mp hencoded
        obtain ⟨v', howner', hv'⟩ := encoded?_eq_some_iff.mp hencoded'
        have hm := hs.owners front k ks v v' hks hfront howner howner'
          (Option.isSome_iff_exists.mpr ⟨encoded, hv⟩)
        rw [hencoded, hencoded']
        dsimp only [Option.map_some]
        rw [List.mapM_cons, List.mapM_cons]
        obtain ⟨hpassed, t, t', ht, ht'⟩ | hrefused := decryptEntry_agrees hh hv hv' hm k
        · rw [ht, ht', pure_bind, pure_bind]
          refine (hrest fun w hw => ?_).bind fun d d' hd => .pure (congrArg (k :: ·) hd)
          rwa [← Option.some.inj (howner.symm.trans hw)]
        · exact hrefused.bind fun _ _ h => h.elim

theorem decrypt_paired (hh : h.Alike h') (hs : Alike Measured h h' sources sources') :
    Paired Ambient.Alike (fun d d' => d.map Prod.fst = d'.map Prod.fst) (decrypt h sources)
      (decrypt h' sources') := by
  rw [decrypt, decrypt, decryptEntries_eq_mapM_encodings, decryptEntries_eq_mapM_encodings, ← hs.names]
  refine (decryptEntries_paired hh hs [] _ rfl (by simp)).bind fun d d' hd => ?_
  have hempty : d.isEmpty = d'.isEmpty := by
    rw [← List.isEmpty_map, hd, List.isEmpty_map]
  rw [hd, hempty]
  split
  · exact Paired.bind (Paired.log _ _) fun _ _ _ => .pure hd
  · exact .pure hd

end Properties

/-- A view is shown by the number of its sources and the names of what was decrypted. -/
theorem PropertyView.summary_congr {p p' : PropertyView}
    (hsize : p.sources.length = p'.sources.length)
    (hnames : p.overlay.map Prod.fst = p'.overlay.map Prod.fst) : p.summary = p'.summary := by
  have hkeys : p.decryptedKeys = p'.decryptedKeys := congrArg Properties.sortNames hnames
  unfold summary
  rw [hsize, hkeys]

theorem PropertyView.build_paired {h h' : Handler} {sources sources' : List Source}
    (hh : h.Alike h') (hs : Properties.Alike Measured h h' sources sources') :
    Paired Ambient.Alike (fun p p' : PropertyView => p.summary = p'.summary) (build h sources)
      (build h' sources') :=
  (Properties.decrypt_paired hh hs).bind fun _ _ hd => .pure (summary_congr hs.size hd)

end Strongbox
