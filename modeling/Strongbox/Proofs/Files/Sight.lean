import Mathlib.Data.List.Perm.Subperm
import Strongbox.Files.Canonical
import Strongbox.Proofs.Files.Parents
import Strongbox.Proofs.Files.Resolution

/-! # Links in sight

A canonical location is found by looking up one link after the other, each by the path that has led
to it. As long as none of them is hidden there by rights or limits, the location is the one that the
path resolves to, so that paths which resolve to one location have one canonical location however
they are spelled. -/

namespace Strongbox

open FileTree

/-- A name that is written for an entry. -/
def IsEntryName (n : String) : Prop :=
  n ≠ "" ∧ IsName n

/-! ## Stems and their locations -/

/-- The names are those of entries, but for steps outwards. -/
def Stem.Tidy (s : Stem) : Prop :=
  ∀ n ∈ s.names, n = ".." ∨ IsEntryName n

namespace Stem.Tidy

variable {s : Stem} {n : String}

theorem start (fromRoot : Bool) : Tidy ⟨fromRoot, []⟩ :=
  nofun

theorem push (hs : s.Tidy) (hn : IsEntryName n) : (s.push n).Tidy :=
  List.forall_mem_cons.mpr ⟨.inr hn, hs⟩

theorem outer (hs : s.Tidy) : s.outer.Tidy := by
  have hpush : (s.push "..").Tidy := List.forall_mem_cons.mpr ⟨.inl rfl, hs⟩
  unfold Stem.outer
  split
  · split
    · exact hs
    · exact hpush
  · rename_i n rest hnames
    split
    · exact hpush
    · intro m hm
      exact hs m (hnames ▸ List.mem_cons_of_mem n hm)

theorem targetStem (hs : s.Tidy) (target : String) : (targetStem target (s.push n)).Tidy := by
  unfold FileTree.targetStem
  split
  · exact start true
  · exact hs

end Stem.Tidy

namespace FileTree

variable {t : FileTree} {s s' r r' : Stem} {n target : String} {names rest : List String}
  {j k k' : Nat}

theorem descend_append (here : Location) (names rest : List String) :
    descend here (names ++ rest) = descend (descend here names) rest := by
  fun_induction descend here names with
  | case1 here => rfl
  | case2 here n names h ih => rw [List.cons_append, descend, if_pos h, ih]
  | case3 here names h ih => rw [List.cons_append, descend, if_neg h, if_pos rfl, ih]
  | case4 here n names h hn ih => rw [List.cons_append, descend, if_neg h, if_neg hn, ih]

theorem stemLocation_push_eq (t : FileTree) (s : Stem) (n : String) :
    t.stemLocation (s.push n) = descend (t.stemLocation s) [n] := by
  rw [stemLocation, Stem.push, List.reverse_cons, descend_append]
  rfl

theorem stemLocation_push (t : FileTree) (s : Stem) (hn : IsEntryName n) :
    t.stemLocation (s.push n) = n :: t.stemLocation s := by
  rw [stemLocation_push_eq, descend, if_neg (not_or.mpr ⟨hn.1, hn.2.1⟩), if_neg hn.2.2]
  rfl

theorem stemLocation_push_outer (t : FileTree) (s : Stem) :
    t.stemLocation (s.push "..") = (t.stemLocation s).tail :=
  stemLocation_push_eq t s ".."

theorem stemLocation_outer (t : FileTree) (hs : s.Tidy) :
    t.stemLocation s.outer = (t.stemLocation s).tail := by
  obtain ⟨fromRoot, names⟩ := s
  cases names with
  | nil =>
      cases fromRoot with
      | true => rfl
      | false => exact stemLocation_push_outer t _
  | cons n rest =>
      rcases hs n List.mem_cons_self with rfl | hn
      · exact stemLocation_push_outer t _
      · rw [Stem.outer]
        dsimp only
        rw [if_neg hn.2.2]
        exact congrArg List.tail (stemLocation_push t ⟨fromRoot, rest⟩ hn).symm

theorem stemLocation_targetStem (t : FileTree) (s : Stem) (n target : String) :
    t.stemLocation (targetStem target (s.push n)) =
      targetStart (Route.ofText target) (t.stemLocation s) := by
  unfold targetStem targetStart
  split <;> rfl

/-! ## Seeing one link after the other -/

/-- A link is looked up by the path of the stem if and only if one is there. -/
def Shows (t : FileTree) (s : Stem) : Prop :=
  ∀ target, t.status .status s.text = .ok (.link target) ↔
    t.lookup (t.stemLocation s) = some (.link target)

theorem Shows.of_lookup (h : (t.status .status s.text).toOption = t.lookup (t.stemLocation s)) :
    t.Shows s := by
  intro target
  rw [← h]
  cases t.status .status s.text with
  | ok e => simp [Except.toOption]
  | error code => simp [Except.toOption]

/-- The stem that names lead to if all that they go by is in sight, and in how many steps. A link's
target is taken to its end before the names after it. -/
inductive Sees (t : FileTree) : Nat → Stem → List String → Stem → Prop where
  | arrived (s : Stem) : Sees t 0 s [] s
  | same {k : Nat} {s r : Stem} {n : String} {rest : List String} (hn : n = "" ∨ n = ".")
      (h : Sees t k s rest r) : Sees t (k + 1) s (n :: rest) r
  | outer {k : Nat} {s r : Stem} {rest : List String} (h : Sees t k s.outer rest r) :
      Sees t (k + 1) s (".." :: rest) r
  | plain {k : Nat} {s r : Stem} {n : String} {rest : List String} (hn : IsEntryName n)
      (hnul : Strongbox.hasNul n = false) (hshows : t.Shows (s.push n))
      (hl : ∀ target, t.lookup (n :: t.stemLocation s) ≠ some (.link target))
      (h : Sees t k (s.push n) rest r) : Sees t (k + 1) s (n :: rest) r
  | follow {j k : Nat} {s mid r : Stem} {n target : String} {rest : List String}
      (hn : IsEntryName n) (hnul : Strongbox.hasNul n = false) (hshows : t.Shows (s.push n))
      (hl : t.lookup (n :: t.stemLocation s) = some (.link target))
      (hinto : Sees t j (targetStem target (s.push n)) (writtenNames target) mid)
      (h : Sees t k mid rest r) : Sees t (j + k + 1) s (n :: rest) r

/-- All that a path goes by is in sight. -/
def InSight (t : FileTree) (p : Path) : Prop :=
  ∃ k r, Sees t k ⟨p.root ≠ .relative, []⟩ p.names r

namespace Sees

theorem tidy (h : Sees t k s names r) (hs : s.Tidy) : r.Tidy := by
  induction h with
  | arrived => exact hs
  | same _ _ ih => exact ih hs
  | outer _ ih => exact ih hs.outer
  | plain hn _ _ _ _ ih => exact ih (hs.push hn)
  | follow _ _ _ _ _ _ ihinto ih => exact ih (ihinto (hs.targetStem _))

theorem of_nil (h : Sees t k s [] r) : k = 0 ∧ r = s := by
  cases h
  exact ⟨rfl, rfl⟩

theorem of_same (hn : n = "" ∨ n = ".") (h : Sees t k s (n :: rest) r) :
    ∃ j, k = j + 1 ∧ Sees t j s rest r := by
  cases h with
  | same _ h => exact ⟨_, rfl, h⟩
  | outer => simp at hn
  | plain hn' => exact (hn.elim hn'.1 hn'.2.1).elim
  | follow hn' => exact (hn.elim hn'.1 hn'.2.1).elim

theorem of_outer (h : Sees t k s (".." :: rest) r) : ∃ j, k = j + 1 ∧ Sees t j s.outer rest r := by
  generalize hnames : ".." :: rest = names at h
  cases h with
  | arrived => cases hnames
  | same hn => simp [← (List.cons.inj hnames).1] at hn
  | outer h => exact ⟨_, rfl, (List.cons.inj hnames).2 ▸ h⟩
  | plain hn => exact absurd (List.cons.inj hnames).1.symm hn.2.2
  | follow hn => exact absurd (List.cons.inj hnames).1.symm hn.2.2

theorem of_plain (hn : IsEntryName n)
    (hl : ∀ target, t.lookup (n :: t.stemLocation s) ≠ some (.link target))
    (h : Sees t k s (n :: rest) r) : ∃ j, k = j + 1 ∧ Sees t j (s.push n) rest r := by
  cases h with
  | same hn' => exact (hn'.elim hn.1 hn.2.1).elim
  | outer => exact absurd rfl hn.2.2
  | plain _ _ _ _ h => exact ⟨_, rfl, h⟩
  | follow _ _ _ hlink => exact absurd hlink (hl _)

theorem of_link (hn : IsEntryName n) (hl : t.lookup (n :: t.stemLocation s) = some (.link target))
    (h : Sees t k s (n :: rest) r) : ∃ i j mid, k = i + j + 1 ∧
      Sees t i (targetStem target (s.push n)) (writtenNames target) mid ∧ Sees t j mid rest r := by
  cases h with
  | same hn' => exact (hn'.elim hn.1 hn.2.1).elim
  | outer => exact absurd rfl hn.2.2
  | plain _ _ _ hno => exact absurd hl (hno _)
  | follow _ _ _ hlink hinto h =>
      rw [hl] at hlink
      obtain rfl := Entry.link.inj (Option.some.inj hlink)
      exact ⟨_, _, _, rfl, hinto, h⟩

/-- From one location the same names lead to one location, in as many steps. -/
theorem unique (h : Sees t k s names r) (h' : Sees t k' s' names r') (hs : s.Tidy) (hs' : s'.Tidy)
    (heq : t.stemLocation s = t.stemLocation s') :
    k = k' ∧ t.stemLocation r = t.stemLocation r' := by
  induction h generalizing k' s' r' with
  | arrived s =>
      obtain ⟨rfl, rfl⟩ := h'.of_nil
      exact ⟨rfl, heq⟩
  | same hn _ ih =>
      obtain ⟨j, rfl, hrest⟩ := h'.of_same hn
      obtain ⟨rfl, hr⟩ := ih hrest hs hs' heq
      exact ⟨rfl, hr⟩
  | outer _ ih =>
      obtain ⟨j, rfl, hrest⟩ := h'.of_outer
      have houter := congrArg List.tail heq
      rw [← stemLocation_outer t hs, ← stemLocation_outer t hs'] at houter
      obtain ⟨rfl, hr⟩ := ih hrest hs.outer hs'.outer houter
      exact ⟨rfl, hr⟩
  | @plain _ s _ n _ hn _ _ hl _ ih =>
      obtain ⟨j, rfl, hrest⟩ := h'.of_plain hn (heq ▸ hl)
      have hpush : t.stemLocation (s.push n) = t.stemLocation (s'.push n) := by
        rw [stemLocation_push t s hn, stemLocation_push t s' hn, heq]
      obtain ⟨rfl, hr⟩ := ih hrest (hs.push hn) (hs'.push hn) hpush
      exact ⟨rfl, hr⟩
  | @follow _ _ s _ _ n target _ hn _ _ hl hinto _ ihinto ih =>
      obtain ⟨i, j, mid', rfl, hinto', hrest⟩ := h'.of_link hn (heq ▸ hl)
      have hstart : t.stemLocation (targetStem target (s.push n)) =
          t.stemLocation (targetStem target (s'.push n)) := by
        rw [stemLocation_targetStem, stemLocation_targetStem, heq]
      obtain ⟨rfl, hmid⟩ := ihinto hinto' (hs.targetStem _) (hs'.targetStem _) hstart
      have htidy := hinto.tidy (hs.targetStem target)
      have htidy' := hinto'.tidy (hs'.targetStem target)
      obtain ⟨rfl, hr⟩ := ih hrest htidy htidy' hmid
      exact ⟨rfl, hr⟩

end Sees

/-! ## What is in sight resolves -/

theorem ResolvesTo.append {here mid l : Location} {names rest : List String}
    (h : ResolvesTo t here names mid) (hrest : ResolvesTo t mid rest l) :
    ResolvesTo t here (names ++ rest) l := by
  induction h with
  | arrived here => exact hrest
  | same _ ih => exact .same (ih hrest)
  | outer _ ih => exact .outer (ih hrest)
  | plain hn hl _ ih => exact .plain hn hl (ih hrest)
  | follow hn hl _ ih =>
      have htarget := ih hrest
      rw [List.append_assoc] at htarget
      exact .follow hn hl htarget

/-- A path resolves to one location. -/
theorem ResolvesTo.unique {here l l' : Location} {names : List String}
    (h : ResolvesTo t here names l) (h' : ResolvesTo t here names l') : l = l' := by
  induction h with
  | arrived here => exact h'.eq_of_nil.symm
  | same _ ih => exact ih h'.of_same
  | outer _ ih => exact ih h'.of_outer
  | plain hn hl _ ih => exact ih (h'.of_plain hn hl)
  | follow hn hl _ ih => exact ih (h'.of_link hn hl)

theorem Sees.resolvesTo (h : Sees t k s names r) (hs : s.Tidy) :
    ResolvesTo t (t.stemLocation s) (names.filter (· ≠ "")) (t.stemLocation r) := by
  induction h with
  | arrived s => exact .arrived _
  | same hn _ ih =>
      rcases hn with rfl | rfl
      · exact ih hs
      · exact .same (ih hs)
  | outer _ ih =>
      have hrest := ih hs.outer
      rw [stemLocation_outer t hs] at hrest
      exact .outer hrest
  | @plain _ s _ n rest hn _ _ hl _ ih =>
      have hrest := ih (hs.push hn)
      rw [stemLocation_push t s hn] at hrest
      rw [List.filter_cons_of_pos (by simpa using hn.1)]
      exact .plain hn.2 hl hrest
  | @follow _ _ s _ _ n target rest hn _ _ hl hinto _ ihinto ih =>
      have hstart := ihinto (hs.targetStem target)
      rw [stemLocation_targetStem] at hstart
      rw [List.filter_cons_of_pos (by simpa using hn.1)]
      exact .follow hn.2 hl (hstart.append (ih (hinto.tidy (hs.targetStem target))))

/-! ## What is in sight is found -/

/-- What happens at a link while so many may still lie in each other. -/
def atLink (t : FileTree) (pending : List Stem) : Nat → LinkResolver
  | 0, link, _ => .ok (.circular (t.stemLocation link))
  | depth + 1, link, target =>
    if link ∈ pending then .ok (.circular (t.stemLocation link))
    else t.resolveWithin depth (link :: pending) (targetStem target link) (writtenNames target)

theorem resolveWithin_eq_along (t : FileTree) (depth : Nat) (pending : List Stem) :
    t.resolveWithin depth pending = t.resolveAlong (t.atLink pending depth) := by
  cases depth <;> rfl

/-- The stem leads to a link, and from there it takes so many steps at least to where the link
leads. -/
inductive Opened (t : FileTree) (k : Nat) : Stem → Prop where
  | intro {s mid : Stem} {n target : String} {j : Nat} (hs : s.Tidy) (hn : IsEntryName n)
      (hl : t.lookup (n :: t.stemLocation s) = some (.link target))
      (hinto : Sees t j (targetStem target (s.push n)) (writtenNames target) mid) (hk : k ≤ j) :
      Opened t k (s.push n)

/-- The links that are being resolved lie at different locations, and none of them takes fewer steps
than are still to come. -/
structure Pending (t : FileTree) (k : Nat) (pending : List Stem) : Prop where
  nodup : (pending.map t.stemLocation).Nodup
  opened : ∀ link ∈ pending, Opened t k link

namespace Pending

variable {pending : List Stem}

theorem nil : Pending t k [] :=
  ⟨List.nodup_nil, by simp⟩

theorem mono (h : Pending t k pending) (hjk : j ≤ k) : Pending t j pending := by
  refine ⟨h.nodup, fun link hlink => ?_⟩
  obtain ⟨hs, hn, hl, hinto, hk⟩ := h.opened link hlink
  exact ⟨hs, hn, hl, hinto, Nat.le_trans hjk hk⟩

theorem length_le (h : Pending t k pending) : pending.length ≤ t.entries.length := by
  have hsubset : pending.map t.stemLocation ⊆ t.entries.map Prod.fst := by
    intro l hl
    obtain ⟨link, hlink, rfl⟩ := List.mem_map.mp hl
    obtain ⟨-, hn, hlookup, -, -⟩ := h.opened link hlink
    rw [stemLocation_push t _ hn]
    obtain ⟨before, after, hentries, -⟩ := List.lookup_eq_some_iff.mp hlookup
    simp [hentries]
  have hlength := (List.subperm_of_subset h.nodup hsubset).length_le
  rwa [List.length_map, List.length_map] at hlength

/-- A link that takes fewer steps than each of those does not lie where one of them does. -/
theorem cons {mid : Stem} (h : Pending t k pending) (hs : s.Tidy) (hn : IsEntryName n)
    (hl : t.lookup (n :: t.stemLocation s) = some (.link target))
    (hinto : Sees t j (targetStem target (s.push n)) (writtenNames target) mid) (hjk : j < k) :
    Pending t j (s.push n :: pending) := by
  have hopened := (h.mono (Nat.le_of_lt hjk)).opened
  refine ⟨List.nodup_cons.mpr ⟨fun hmem => ?_, h.nodup⟩, List.forall_mem_cons.mpr
    ⟨⟨hs, hn, hl, hinto, Nat.le_refl j⟩, hopened⟩⟩
  obtain ⟨link, hlink, heq⟩ := List.mem_map.mp hmem
  obtain @⟨s', mid', n', target', i, hs', hn', hl', hinto', hki⟩ := h.opened link hlink
  rw [stemLocation_push t s' hn', stemLocation_push t s hn] at heq
  rw [heq, hl] at hl'
  obtain rfl := Entry.link.inj (Option.some.inj hl')
  have hstart : t.stemLocation (targetStem target (s.push n)) =
      t.stemLocation (targetStem target (s'.push n')) := by
    rw [stemLocation_targetStem, stemLocation_targetStem, (List.cons.inj heq).2]
  obtain ⟨rfl, -⟩ := hinto.unique hinto' (hs.targetStem target) (hs'.targetStem target) hstart
  exact absurd hki (Nat.not_le.mpr hjk)

end Pending

/-- No link is come upon while it is being resolved, and there is room for all that are. -/
theorem Sees.resolveWithin_eq (h : Sees t k s names r) (hs : s.Tidy) {depth : Nat}
    {pending : List Stem} (hpending : Pending t k pending)
    (hroom : t.entries.length ≤ depth + pending.length) :
    t.resolveWithin depth pending s names = .ok (.reached r) := by
  induction h generalizing depth pending with
  | arrived s => rw [resolveWithin_eq_along, resolveAlong]
  | same hn _ ih =>
      have hrest := ih hs (hpending.mono (Nat.le_succ _)) hroom
      rw [resolveWithin_eq_along] at hrest ⊢
      rw [resolveAlong, if_pos hn, hrest]
  | outer _ ih =>
      have hrest := ih hs.outer (hpending.mono (Nat.le_succ _)) hroom
      rw [resolveWithin_eq_along] at hrest ⊢
      rw [resolveAlong, if_neg (by decide), if_pos rfl, hrest]
  | @plain _ s _ n _ hn hnul hshows hl _ ih =>
      have hrest := ih (hs.push hn) (hpending.mono (Nat.le_succ _)) hroom
      rw [resolveWithin_eq_along] at hrest ⊢
      rw [resolveAlong, if_neg (not_or.mpr ⟨hn.1, hn.2.1⟩), if_neg hn.2.2, hnul,
        if_neg Bool.false_ne_true]
      split
      · rename_i target hstatus
        rw [hshows target, stemLocation_push t s hn] at hstatus
        exact absurd hstatus (hl target)
      · exact hrest
  | @follow j k s mid _ n target _ hn hnul hshows hl hinto _ ihinto ih =>
      have hrest := ih (hinto.tidy (hs.targetStem target))
        (hpending.mono (by omega)) hroom
      have hopen := hpending.cons hs hn hl hinto (by omega)
      have hlength := hopen.length_le
      rw [List.length_cons] at hlength
      obtain ⟨depth, rfl⟩ : ∃ d, depth = d + 1 := ⟨depth - 1, by omega⟩
      have hdepth : t.entries.length ≤ depth + (s.push n :: pending).length := by
        rw [List.length_cons]
        omega
      have hmid := ihinto (hs.targetStem target) hopen hdepth
      have hnew : s.push n ∉ pending := fun hmem =>
        (List.nodup_cons.mp hopen.nodup).1 (List.mem_map_of_mem hmem)
      have hstatus := (hshows target).mpr (by rw [stemLocation_push t s hn, hl])
      rw [resolveWithin_eq_along] at hrest ⊢
      rw [resolveAlong, if_neg (not_or.mpr ⟨hn.1, hn.2.1⟩), if_neg hn.2.2, hnul]
      simp only [hstatus, atLink, if_neg hnew, hmid, hrest, Bool.false_eq_true, if_false]

/-! ## Paths -/

variable {p : Path} {l lock : Location}

theorem Sees.resolves {r : Stem} (h : Sees t k ⟨p.root ≠ .relative, []⟩ p.names r) :
    t.Resolves (toString p) (t.stemLocation r) := by
  rw [Resolves, Path.fromRoot_ofText]
  have hstart : t.stemLocation ⟨p.root ≠ .relative, []⟩ = t.startOf (decide (p.root ≠ .relative)) :=
    rfl
  by_cases hnames : p.names = []
  · rw [hnames] at h
    obtain ⟨-, rfl⟩ := h.of_nil
    rw [Path.names_ofText_of_eq_nil hnames, hstart]
    split
    · exact .same (.arrived _)
    · exact .arrived _
  · have hresolves := h.resolvesTo (Stem.Tidy.start _)
    rw [List.filter_eq_self.mpr fun n hn => by simpa using (p.normal n hn).1, hstart] at hresolves
    rwa [Path.names_ofText_of_ne_nil hnames]

theorem Sees.resolved_eq {r : Stem} (h : Sees t k ⟨p.root ≠ .relative, []⟩ p.names r) :
    t.resolved p = .ok (t.stemLocation r) := by
  have hroom : t.entries.length ≤ t.resolveDepth + ([] : List Stem).length := by
    rw [resolveDepth, List.length_nil]
    omega
  rw [resolved, h.resolveWithin_eq (Stem.Tidy.start _) .nil hroom]
  rfl

theorem resolved_of_canonical (h : t.canonical p = .ok lock) : t.resolved p = .ok lock := by
  unfold canonical at h
  cases hresolved : t.resolved p with
  | error m => rw [hresolved] at h; cases h
  | ok l =>
      rw [hresolved] at h
      simp only [bind, Except.bind] at h
      split at h
      · cases h
      · split at h
        · cases h
        · exact h

/-- The canonical location of a path is the one that it resolves to, if nothing on the way is out of
sight. -/
theorem Resolves.canonical_eq (h : t.Resolves (toString p) l) (hsight : t.InSight p)
    (hcanonical : t.canonical p = .ok lock) : lock = l := by
  obtain ⟨k, r, hsees⟩ := hsight
  have hlock := resolved_of_canonical hcanonical
  rw [hsees.resolved_eq] at hlock
  rw [← Except.ok.inj hlock]
  exact ResolvesTo.unique hsees.resolves h

end FileTree

end Strongbox
