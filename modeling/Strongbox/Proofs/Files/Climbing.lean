import Strongbox.Files.Canonical
import Strongbox.Proofs.Files.Parents

/-! # Climbing out of the root

A walk cannot leave the root by going up, but the resolution of a relative path writes down every
step. So a path can be walked although what it resolves to has become too long to be looked up. -/

namespace Strongbox

theorem Stem.utf8ByteSize_text_push (n : Nat) (m : String) :
    (Stem.text ⟨false, m :: List.replicate n ".."⟩).utf8ByteSize = 3 * n + m.utf8ByteSize := by
  have hjoin : ∀ n, ("/".intercalate (List.replicate n ".." ++ [m])).utf8ByteSize =
      3 * n + m.utf8ByteSize := by
    intro n
    induction n with
    | zero => simp
    | succ n ih =>
        obtain ⟨o, rest, hrest⟩ :=
          List.exists_cons_of_ne_nil (l := List.replicate n ".." ++ [m]) (by simp)
        rw [List.replicate_succ, List.cons_append, hrest, String.intercalate_cons_cons, ← hrest,
          String.utf8ByteSize_append, ih]
        have hstep : (".." ++ "/").utf8ByteSize = 3 := by decide
        rw [hstep]
        omega
  rw [Stem.text, if_neg Bool.false_ne_true, String.empty_append, List.reverse_cons,
    List.reverse_replicate, hjoin]

theorem Stem.utf8ByteSize_text_le_push (s : Stem) (m : String) :
    s.text.utf8ByteSize ≤ (s.push m).text.utf8ByteSize := by
  rw [text, text, push, List.reverse_cons, String.utf8ByteSize_append, String.utf8ByteSize_append]
  exact Nat.add_le_add_left (Path.utf8ByteSize_intercalate_le _ m) _

/-- As many steps up as this, written as the target of a link. -/
def climb (n : Nat) : String :=
  "/".intercalate (List.replicate n "..")

theorem utf8ByteSize_climb (n : Nat) : (climb (n + 1)).utf8ByteSize = 3 * n + 2 := by
  induction n with
  | zero => decide
  | succ n ih =>
      rw [climb, List.replicate_succ, List.replicate_succ, String.intercalate_cons_cons,
        ← List.replicate_succ, String.utf8ByteSize_append, ← climb, ih]
      have hstep : (".." ++ "/").utf8ByteSize = 3 := by decide
      rw [hstep]
      omega

theorem slashless_steps {n : Nat} : ∀ m ∈ List.replicate n "..", m ≠ "" ∧ '/' ∉ m.toList := by
  intro m hm
  rw [List.eq_of_mem_replicate hm]
  decide

theorem Route.names_ofText_climb (n : Nat) :
    (Route.ofText (climb n)).names = List.replicate n ".." :=
  Route.names_ofText_intercalate slashless_steps

theorem Route.fromRoot_ofText_climb (n : Nat) : (Route.ofText (climb n)).fromRoot = false := by
  cases n with
  | zero => rfl
  | succ n =>
      obtain ⟨s, hs⟩ := Path.intercalate_cons ".." (List.replicate n "..")
      rw [climb, List.replicate_succ, hs]
      simp [Route.ofText]

namespace FileTree

variable {t : FileTree} {aim : Aim} {links : Nat} {closed : Bool} {names : List String}
  {place : Place} {p : String}

theorem writtenNames_climb {n : Nat} (hn : n ≠ 0) :
    writtenNames (climb n) = List.replicate n ".." := by
  have hstretches :
      Path.stretches (climb n).toList = (List.replicate n "..").map String.toList := by
    rw [climb, String.toList_intercalate]
    refine Path.stretches_intercalate (by simp [hn]) ?_
    intro cs hcs
    obtain ⟨m, hm, rfl⟩ := List.mem_map.mp hcs
    exact (slashless_steps m hm).2
  rw [writtenNames, hstretches]
  simp

theorem isSearchable_root (t : FileTree) : t.isSearchable [] = true := by
  rw [isSearchable, modeAt, lookup]
  decide

theorem isSearchable_of_directory {l : Location} {mode : Nat}
    (h : t.lookup l = some (.directory mode)) (hmode : grants mode searchBit = true) :
    t.isSearchable l = true := by
  rw [isSearchable, modeAt, h]
  exact hmode

theorem Leads.climb (n : Nat) (h : Leads t aim links closed [] names place) :
    Leads t aim links closed [] (List.replicate n ".." ++ names) place := by
  induction n with
  | zero => exact h
  | succ n ih => exact .outer t.isSearchable_root ih

theorem status_of_pathLimit_le (h : pathLimit ≤ p.utf8ByteSize) :
    t.status aim p = .error .nameTooLong := by
  have hempty : p.isEmpty = false := by
    rw [Bool.eq_false_iff]
    intro hp
    rw [String.isEmpty_iff.mp hp] at h
    exact absurd h (by decide)
  rw [status, locate, if_neg (by simp [hempty]), if_pos h]
  rfl

/-! ## Steps of a resolution -/

section

variable {onLink : LinkResolver} {stem there : Stem} {n target : String}

theorem resolveAlong_link (hn : n ≠ "" ∧ IsName n) (hnul : Strongbox.hasNul n = false)
    (hstatus : t.status .status (stem.push n).text = .ok (.link target))
    (hlink : onLink (stem.push n) target = .ok (.reached there)) :
    t.resolveAlong onLink stem (n :: names) = t.resolveAlong onLink there names := by
  rw [resolveAlong, if_neg (not_or.mpr ⟨hn.1, hn.2.1⟩), if_neg hn.2.2, if_neg (by simp [hnul]),
    hstatus]
  dsimp only
  rw [hlink]

/-- A name that has become too long to be looked up is taken as it is written. -/
theorem resolveAlong_long (hn : n ≠ "" ∧ IsName n) (hnul : Strongbox.hasNul n = false)
    (hlong : pathLimit ≤ (stem.push n).text.utf8ByteSize) :
    t.resolveAlong onLink stem (n :: names) = t.resolveAlong onLink (stem.push n) names := by
  rw [resolveAlong, if_neg (not_or.mpr ⟨hn.1, hn.2.1⟩), if_neg hn.2.2, if_neg (by simp [hnul]),
    status_of_pathLimit_le hlong]

end

theorem resolveAlong_climb (onLink : LinkResolver) (k n : Nat) (names : List String) :
    t.resolveAlong onLink ⟨false, List.replicate k ".."⟩ (List.replicate n ".." ++ names) =
      t.resolveAlong onLink ⟨false, List.replicate (k + n) ".."⟩ names := by
  induction n generalizing k with
  | zero => rfl
  | succ n ih =>
      have houter : Stem.outer ⟨false, List.replicate k ".."⟩ =
          ⟨false, List.replicate (k + 1) ".."⟩ := by
        cases k with
        | zero => rfl
        | succ k => simp [Stem.outer, Stem.push, List.replicate_succ]
      rw [List.replicate_succ, List.cons_append, resolveAlong, if_neg (by decide), if_pos rfl,
        houter, ih, Nat.add_assoc, Nat.add_comm 1 n]

/-- A link's target that only leads up is written down in full. -/
theorem resolveAlong_target {n : Nat} (hn : n ≠ 0) (onLink : LinkResolver) :
    t.resolveAlong onLink ⟨false, []⟩ (writtenNames (climb n)) =
      .ok (.reached ⟨false, List.replicate n ".."⟩) := by
  have hclimb := resolveAlong_climb (t := t) onLink 0 n []
  rw [List.append_nil, Nat.zero_add] at hclimb
  rw [writtenNames_climb hn]
  exact hclimb

theorem descend_climb (n : Nat) (names : List String) :
    descend [] (List.replicate n ".." ++ names) = descend [] names := by
  induction n with
  | zero => rfl
  | succ n ih =>
      rw [List.replicate_succ, List.cons_append, descend, if_neg (by decide), if_pos rfl]
      exact ih

/-! ## What a resolution comes to -/

theorem canonical_of_resolved {p : Path} {l : Location} (hp : t.resolved p = .ok l)
    (hnul : Strongbox.hasNul (locationText l) = false) :
    t.canonical p =
      match t.status .entry (locationText l) with
      | .error .tooManyLinks => .error .linkLoop
      | _ => .ok l := by
  rw [canonical, hp]
  simp only [bind, Except.bind, hnul, Bool.false_eq_true, if_false]
  rfl

/-! ## A way round in circles

A tree in which the path `l/m/../n/k` leads into a directory that is still to be made. Its first
link leads up and up, so that the rest of it resolves to names below the link `n`. This link dangles
until the directory is made, and leads to itself from then on. -/

def roundabout (n : Nat) : FileTree where
  entries := [(["l"], .link (climb n)), (["m"], .link "e/a"), (["e"], .directory directoryMode),
    (["a", "e"], .directory directoryMode), (["n"], .link "e/n/../../n")]
  workingDirectory := []

/-- The same tree with the directory. -/
def roundaboutMade (n : Nat) : FileTree :=
  (roundabout n).put ["n", "e"] (.directory directoryMode)

theorem roundabout_extends (n : Nat) : Extends (roundabout n) (roundaboutMade n) := by
  apply Extends.put (by nofun) rfl
  rintro mode ⟨⟩
  rfl

section

variable {n : Nat} (h : Extends (roundabout n) t)

include h

/-- The names behind the way round are looked up in the directory `e`. -/
theorem leads_roundabout (hrest : t.Leads aim 38 false ["e"] names place) :
    t.Leads aim linkLimit false [] ("l" :: "m" :: ".." :: names) place := by
  have hroot := t.isSearchable_root
  have he : t.lookup ["e"] = some (.directory directoryMode) := h.keeps _ _ rfl
  have ha : t.lookup ["a", "e"] = some (.directory directoryMode) := h.keeps _ _ rfl
  have hm : t.lookup ["m"] = some (.link "e/a") := h.keeps _ _ rfl
  have hl : t.lookup ["l"] = some (.link (climb n)) := h.keeps _ _ rfl
  have hbeyond : t.Leads aim 38 false [] ("e" :: "a" :: ".." :: names) place :=
    .enter hroot ⟨by decide, by decide⟩ (by simp) (by decide) he
      (.enter (isSearchable_of_directory he (by decide)) ⟨by decide, by decide⟩ (by simp)
        (by decide) ha (.outer (isSearchable_of_directory ha (by decide)) hrest))
  have hback : t.Leads aim 39 false [] ("m" :: ".." :: names) place := by
    have hroute : Route.ofText "e/a" = ⟨false, ["e", "a"], false⟩ := by decide
    refine .follow hroot ⟨by decide, by decide⟩ (by nofun) (by decide) hm ?_
    rw [hroute]
    exact hbeyond
  have hstart : targetStart (Route.ofText (climb n)) [] = [] := by
    rw [targetStart, Route.fromRoot_ofText_climb]
    rfl
  refine .follow hroot ⟨by decide, by decide⟩ (by nofun) (by decide) hl ?_
  rw [hstart, Route.names_ofText_climb]
  exact hback.climb n

theorem locate_roundabout (hsize : p.utf8ByteSize < pathLimit)
    (hroute : Route.ofText p = ⟨false, "l" :: "m" :: ".." :: names, false⟩)
    (hrest : t.Leads aim 38 false ["e"] names place) : t.locate aim p = .ok place := by
  have hempty : p.isEmpty = false := by
    rw [Bool.eq_false_iff]
    intro hp
    rw [String.isEmpty_iff.mp hp] at hroute
    cases hroute
  refine locate_eq_ok_iff.mpr ⟨hempty, hsize, ?_⟩
  rw [hroute, h.startOf]
  exact leads_roundabout h hrest

theorem status_roundabout : t.status .status "l" = .ok (.link (climb n)) := by
  have hroute : Route.ofText "l" = ⟨false, ["l"], false⟩ := by decide
  have hleads : t.Leads .status linkLimit false [] ["l"] (.found ["l"] (.link (climb n))) :=
    .entry _ t.isSearchable_root ⟨by decide, by decide⟩ (by decide) (by decide)
      (h.keeps _ _ rfl) rfl
  refine status_eq_ok_iff.mpr ⟨["l"], locate_eq_ok_iff.mpr ⟨by decide, by decide, ?_⟩⟩
  rw [hroute, h.startOf]
  exact hleads

/-- A walk through the link `n` looks for the directory that the link leads through. -/
theorem walk_roundabout (links : Nat) :
    t.walk .entry (links + 1) false [] ["n", "k"] =
      t.along .entry false (t.onLink .entry false links) ["e"] ["n", "..", "..", "n", "k"] := by
  have he : t.lookup ["e"] = some (.directory directoryMode) := h.keeps _ _ rfl
  have hn : t.lookup ["n"] = some (.link "e/n/../../n") := h.keeps _ _ rfl
  have hroute : Route.ofText "e/n/../../n" = ⟨false, ["e", "n", "..", "..", "n"], false⟩ := by
    decide
  have hfollow : t.onLink .entry false (links + 1) "e/n/../../n" [] ["k"] =
      t.walk .entry links false [] ["e", "n", "..", "..", "n", "k"] := by
    rw [onLink]
    dsimp only
    rw [hroute]
    rfl
  rw [walk_eq_along, along_cons t.isSearchable_root ⟨by decide, by decide⟩ (by simp) (by decide),
    hn]
  refine hfollow.trans ?_
  rw [walk_eq_along, along_cons t.isSearchable_root ⟨by decide, by decide⟩ (by simp) (by decide),
    he]

/-- Once the directory is there, the link is followed until no more links may be. -/
theorem walk_roundabout_made (hmade : t.lookup ["n", "e"] = some (.directory directoryMode))
    (links : Nat) : t.walk .entry links false [] ["n", "k"] = .error .tooManyLinks := by
  have he : t.isSearchable ["e"] = true :=
    isSearchable_of_directory (h.keeps ["e"] (.directory directoryMode) rfl) (by decide)
  have hn : t.isSearchable ["n", "e"] = true := isSearchable_of_directory hmade (by decide)
  induction links with
  | zero =>
      have hlink : t.lookup ["n"] = some (.link "e/n/../../n") := h.keeps _ _ rfl
      rw [walk_eq_along,
        along_cons t.isSearchable_root ⟨by decide, by decide⟩ (by simp) (by decide), hlink]
      rfl
  | succ links ih =>
      rw [walk_roundabout h, along_cons he ⟨by decide, by decide⟩ (by simp) (by decide), hmade]
      rw [walk_eq_along] at ih
      simpa [along, he, hn] using ih

theorem exists_resolveDepth : ∃ depth, t.resolveDepth = depth + 1 + 1 := by
  have hl : t.entries.lookup ["l"] = some (.link (climb n)) := h.keeps ["l"] _ rfl
  cases hentries : t.entries with
  | nil =>
      rw [hentries] at hl
      cases hl
  | cons e rest =>
      refine ⟨4 * rest.length + 2, ?_⟩
      rw [resolveDepth, hentries, List.length_cons]
      rfl

end

/-- Behind the first link nothing can be looked up, and the step back only takes away the name in
front of it. -/
theorem resolveAlong_beyond {n : Nat} (hn : pathLimit ≤ 3 * n + 1) (onLink : LinkResolver) :
    t.resolveAlong onLink ⟨false, List.replicate n ".."⟩ ["m", "..", "n", "k"] =
      .ok (.reached ⟨false, "k" :: "n" :: List.replicate n ".."⟩) := by
  have hlong : ∀ m : String, m.utf8ByteSize = 1 →
      pathLimit ≤ (Stem.push ⟨false, List.replicate n ".."⟩ m).text.utf8ByteSize := by
    intro m hm
    rw [Stem.push, Stem.utf8ByteSize_text_push, hm]
    exact hn
  have hback : Stem.outer (Stem.push ⟨false, List.replicate n ".."⟩ "m") =
      ⟨false, List.replicate n ".."⟩ := rfl
  rw [resolveAlong_long ⟨by decide, by decide, by decide⟩ (by decide) (hlong "m" (by decide)),
    resolveAlong, if_neg (by decide), if_pos rfl, hback,
    resolveAlong_long ⟨by decide, by decide, by decide⟩ (by decide) (hlong "n" (by decide)),
    resolveAlong_long ⟨by decide, by decide, by decide⟩ (by decide)
      (Nat.le_trans (hlong "n" (by decide)) (Stem.utf8ByteSize_text_le_push _ "k"))]
  rfl

section

variable {n : Nat} (h : Extends (roundabout n) t) (hn : pathLimit ≤ 3 * n + 1)

include h hn

theorem resolved_roundabout : t.resolved (.ofString "l/m/../n/k") = .ok ["k", "n"] := by
  have hnames : (Path.ofString "l/m/../n/k").names = ["l", "m", "..", "n", "k"] := by decide
  have hroot : decide ((Path.ofString "l/m/../n/k").root ≠ .relative) = false := by decide
  have hpos : n ≠ 0 := by
    rintro rfl
    exact absurd hn (by decide)
  have hreached : t.resolveWithin t.resolveDepth [] ⟨false, []⟩ ["l", "m", "..", "n", "k"] =
      .ok (.reached ⟨false, "k" :: "n" :: List.replicate n ".."⟩) := by
    obtain ⟨depth, hdepth⟩ := exists_resolveDepth h
    have htext : (Stem.push ⟨false, []⟩ "l").text = "l" := by decide
    have hstart : targetStem (climb n) (Stem.push ⟨false, []⟩ "l") = ⟨false, []⟩ := by
      rw [targetStem, Route.fromRoot_ofText_climb]
      rfl
    rw [hdepth, resolveWithin]
    refine (resolveAlong_link ⟨by decide, by decide, by decide⟩ (by decide)
      (htext ▸ status_roundabout h) ?_).trans (resolveAlong_beyond hn _)
    rw [if_neg (by decide), hstart]
    exact resolveAlong_target hpos _
  have hlocation : t.stemLocation ⟨false, "k" :: "n" :: List.replicate n ".."⟩ = ["k", "n"] := by
    rw [stemLocation, h.startOf, List.reverse_cons, List.reverse_cons, List.reverse_replicate,
      List.append_assoc]
    exact descend_climb n ["n", "k"]
  rw [resolved, hnames, hroot, hreached, ← hlocation]
  rfl

theorem canonical_roundabout_eq :
    t.canonical (.ofString "l/m/../n/k") =
      match t.walk .entry linkLimit false [] ["n", "k"] with
      | .error .tooManyLinks => .error .linkLoop
      | _ => .ok ["k", "n"] := by
  have htext : locationText ["k", "n"] = "/n/k" := by decide
  have hroute : Route.ofText "/n/k" = ⟨true, ["n", "k"], false⟩ := by decide
  have hlocate : t.locate .entry "/n/k" = t.walk .entry linkLimit false [] ["n", "k"] := by
    rw [locate, if_neg (by decide), if_neg (by decide), hroute]
    rfl
  rw [canonical_of_resolved (resolved_roundabout h hn) (by decide), htext, status, hlocate]
  cases t.walk .entry linkLimit false [] ["n", "k"] with
  | error code => cases code <;> rfl
  | ok place => cases place <;> rfl

theorem canonical_roundabout_made
    (hmade : t.lookup ["n", "e"] = some (.directory directoryMode)) :
    t.canonical (.ofString "l/m/../n/k") = .error .linkLoop := by
  rw [canonical_roundabout_eq h hn, walk_roundabout_made h hmade]

end

theorem canonical_roundabout {n : Nat} (hn : pathLimit ≤ 3 * n + 1) :
    (roundabout n).canonical (.ofString "l/m/../n/k") = .ok ["k", "n"] := by
  have hlookup : (roundabout n).lookup ["e"] = some (.directory directoryMode) := rfl
  have he := isSearchable_of_directory hlookup (by decide)
  have hwalk : (roundabout n).walk .entry (39 + 1) false [] ["n", "k"] = .error .noEntry := by
    rw [walk_roundabout (.refl _), along_cons he ⟨by decide, by decide⟩ (by simp) (by decide)]
    rfl
  have hlinks : linkLimit = 39 + 1 := rfl
  rw [canonical_roundabout_eq (.refl _) hn, hlinks, hwalk]

/-! ### The directory made, and a file made in it -/

theorem makeDirectory_roundabout (n : Nat) :
    (roundabout n).makeDirectory "l/m/../n" = .ok (roundaboutMade n) := by
  have hlookup : (roundabout n).lookup ["e"] = some (.directory directoryMode) := rfl
  have he := isSearchable_of_directory hlookup (by decide)
  have hvacant : (roundabout n).Leads .name 38 false ["e"] ["n"] (.vacant ["n", "e"]) :=
    .vacant 38 he ⟨by decide, by decide⟩ (by decide) (by decide) rfl
  exact makeDirectory_eq_ok_iff.mpr
    ⟨["n", "e"], locate_roundabout (.refl _) (by decide) (by decide) hvacant, rfl⟩

theorem lookup_roundaboutMade (n : Nat) :
    (roundaboutMade n).lookup ["n", "e"] = some (.directory directoryMode) := by
  rw [roundaboutMade, lookup_put _ _ _ _ (by nofun), if_pos rfl]

theorem locate_roundaboutMade (aim : Aim) (n : Nat) :
    (roundaboutMade n).locate aim "l/m/../n/k" = .ok (.vacant ["k", "n", "e"]) := by
  have hext := roundabout_extends n
  have hn := lookup_roundaboutMade n
  have he := isSearchable_of_directory (hext.keeps ["e"] (.directory directoryMode) rfl) (by decide)
  have hfree : (roundaboutMade n).lookup ["k", "n", "e"] = none := by
    rw [roundaboutMade, lookup_put _ _ _ _ (by nofun), if_neg (by decide)]
    rfl
  have hvacant : (roundaboutMade n).Leads aim 38 false ["e"] ["n", "k"]
      (.vacant ["k", "n", "e"]) :=
    .enter he ⟨by decide, by decide⟩ (by simp) (by decide) hn
      (.vacant 38 (isSearchable_of_directory hn (by decide)) ⟨by decide, by decide⟩ (by simp)
        (by decide) hfree)
  exact locate_roundabout hext (by decide) (by decide) hvacant

end FileTree

end Strongbox
