import Strongbox.Proofs.Files.Directories

/-! # The directory around a file

The text of a path is walked along the names that the path is made of. So a path that leads to a
file leads there by way of its parent, and this is a directory. -/

namespace Strongbox

namespace Path

/-! ## The text of a path -/

theorem stretches_ne_nil (cs : List Char) : stretches cs ≠ [] := by
  cases cs with
  | nil => simp [stretches]
  | cons c rest =>
      rw [stretches]
      split
      · exact List.cons_ne_nil _ _
      · split <;> exact List.cons_ne_nil _ _

theorem stretches_append (cs rest : List Char) :
    stretches (cs ++ '/' :: rest) = stretches cs ++ stretches rest := by
  induction cs with
  | nil => simp [stretches]
  | cons c cs ih =>
      rw [List.cons_append, stretches, stretches, ih]
      cases hcs : stretches cs with
      | nil => exact absurd hcs (stretches_ne_nil cs)
      | cons s more => split <;> rfl

theorem stretches_of_not_mem {cs : List Char} (h : '/' ∉ cs) : stretches cs = [cs] := by
  induction cs with
  | nil => rfl
  | cons c cs ih =>
      obtain ⟨hc, hcs⟩ := not_or.mp (mt List.mem_cons.mpr h)
      rw [stretches, if_neg (Ne.symm hc), ih hcs]

theorem stretches_intercalate {names : List (List Char)} (hne : names ≠ [])
    (h : ∀ n ∈ names, '/' ∉ n) : stretches (['/'].intercalate names) = names := by
  induction names with
  | nil => exact absurd rfl hne
  | cons n rest ih =>
      have hn := stretches_of_not_mem (h n List.mem_cons_self)
      cases rest with
      | nil => rw [List.intercalate_singleton, hn]
      | cons m rest =>
          have hrest := ih (List.cons_ne_nil m rest) fun n hn => h n (List.mem_cons_of_mem _ hn)
          rw [List.intercalate_cons_cons, List.append_assoc, List.singleton_append,
            stretches_append, hn, hrest, List.singleton_append]

end Path

namespace Route

theorem names_ofText_slash (s : String) : (ofText ("/" ++ s)).names = (ofText s).names := by
  simp [ofText, String.toList_append, Path.stretches]

theorem names_ofText_root (r : PathRoot) (s : String) :
    (ofText (r.text ++ s)).names = (ofText s).names := by
  cases r with
  | relative => simp [PathRoot.text]
  | slash => exact names_ofText_slash s
  | doubleSlash =>
      have htext : PathRoot.doubleSlash.text ++ s = "/" ++ ("/" ++ s) := by
        rw [← String.append_assoc]
        rfl
      rw [htext, names_ofText_slash, names_ofText_slash]

theorem names_ofText_intercalate {names : List String}
    (h : ∀ n ∈ names, n ≠ "" ∧ '/' ∉ n.toList) :
    (ofText ("/".intercalate names)).names = names := by
  by_cases hne : names = []
  · subst hne
    rfl
  · have hstretches : Path.stretches ("/".intercalate names).toList = names.map String.toList := by
      rw [String.toList_intercalate]
      refine Path.stretches_intercalate (by simpa using hne) ?_
      intro cs hcs
      obtain ⟨n, hn, rfl⟩ := List.mem_map.mp hcs
      exact (h n hn).2
    have hmap : (names.map String.toList).map String.ofList = names := by simp
    rw [ofText, hstretches, hmap, List.filter_eq_self]
    intro n hn
    simpa using (h n hn).1

end Route

namespace Path

variable {p : Path}

theorem names_ofText_joined (p : Path) : (Route.ofText ("/".intercalate p.names)).names = p.names :=
  Route.names_ofText_intercalate fun n hn => ⟨(p.normal n hn).1, (p.normal n hn).2.2⟩

/-- A relative path without names stands for the directory itself. -/
theorem toString_of_names_eq_nil (h : p.names = []) :
    toString p = if p.root = .relative then "." else p.root.text := by
  obtain ⟨root, names, normal⟩ := p
  obtain rfl : names = [] := h
  cases root <;> rfl

theorem toString_of_names_ne_nil (h : p.names ≠ []) :
    toString p = p.root.text ++ "/".intercalate p.names := by
  have hne : (p.root.text ++ "/".intercalate p.names).isEmpty = false := by
    rw [Bool.eq_false_iff]
    intro hempty
    have hjoined : "/".intercalate p.names = "" :=
      (String.append_eq_empty_iff.mp (String.isEmpty_iff.mp hempty)).2
    have hnone := congrArg (fun s => (Route.ofText s).names) hjoined
    exact h ((names_ofText_joined p).symm.trans hnone)
  simp only [toString, hne, Bool.false_eq_true, if_false]

theorem toString_ne_empty (p : Path) : toString p ≠ "" := by
  intro h
  simp only [toString] at h
  split at h
  · simp at h
  · simp_all

theorem utf8ByteSize_intercalate_le (names : List String) (n : String) :
    ("/".intercalate names).utf8ByteSize ≤ ("/".intercalate (names ++ [n])).utf8ByteSize := by
  induction names with
  | nil => simp
  | cons m rest ih =>
      cases rest with
      | nil => simp [String.utf8ByteSize_append, Nat.add_assoc]
      | cons m' rest =>
          simp only [List.cons_append, String.intercalate_cons_cons,
            String.utf8ByteSize_append] at ih ⊢
          omega

theorem intercalate_cons (n : String) (rest : List String) :
    ∃ s, "/".intercalate (n :: rest) = n ++ s := by
  cases rest with
  | nil => exact ⟨"", by simp⟩
  | cons m rest => exact ⟨_, by rw [String.intercalate_cons_cons, String.append_assoc]⟩

theorem names_eq_parent_append (h : p.names ≠ []) : ∃ n, p.names = p.parent.names ++ [n] :=
  ⟨p.names.getLast h, (List.dropLast_concat_getLast h).symm⟩

/-- The text of the parent is no longer. -/
theorem utf8ByteSize_parent_le (h : p.names ≠ []) :
    (toString p.parent).utf8ByteSize ≤ (toString p).utf8ByteSize := by
  obtain ⟨n, hn⟩ := names_eq_parent_append h
  by_cases hparent : p.parent.names = []
  · have hpos : 0 < (toString p).utf8ByteSize :=
      Nat.pos_of_ne_zero (mt String.utf8ByteSize_eq_zero_iff.mp p.toString_ne_empty)
    rw [toString_of_names_eq_nil hparent]
    split
    · exact hpos
    · rw [toString_of_names_ne_nil h, String.utf8ByteSize_append]
      exact Nat.le_add_right _ _
  · have hroot : p.parent.root = p.root := rfl
    rw [toString_of_names_ne_nil h, toString_of_names_ne_nil hparent, hn, hroot,
      String.utf8ByteSize_append, String.utf8ByteSize_append]
    exact Nat.add_le_add_left (utf8ByteSize_intercalate_le _ n) _

theorem names_ofText_of_eq_nil (h : p.names = []) :
    (Route.ofText (toString p)).names = if p.root = .relative then ["."] else [] := by
  rw [toString_of_names_eq_nil h]
  cases p.root <;> decide

theorem names_ofText_of_ne_nil (h : p.names ≠ []) :
    (Route.ofText (toString p)).names = p.names := by
  rw [toString_of_names_ne_nil h, Route.names_ofText_root, names_ofText_joined]

theorem exists_intercalate_eq_cons (h : p.names ≠ []) :
    ∃ c cs, ("/".intercalate p.names).toList = c :: cs ∧ c ≠ '/' := by
  obtain ⟨n, rest, hnames⟩ := List.exists_cons_of_ne_nil h
  obtain ⟨hne, -, hslash⟩ := p.normal n (hnames ▸ List.mem_cons_self)
  obtain ⟨c, cs, hcs⟩ := List.exists_cons_of_ne_nil (mt String.toList_eq_nil_iff.mp hne)
  obtain ⟨s, hs⟩ := intercalate_cons n rest
  refine ⟨c, cs ++ s.toList, ?_, ?_⟩
  · rw [hnames, hs, String.toList_append, hcs, List.cons_append]
  · rintro rfl
    exact hslash (hcs ▸ List.mem_cons_self)

theorem fromRoot_ofText (p : Path) :
    (Route.ofText (toString p)).fromRoot = decide (p.root ≠ .relative) := by
  by_cases h : p.names = []
  · rw [toString_of_names_eq_nil h]
    cases p.root <;> rfl
  · obtain ⟨c, cs, hcs, hc⟩ := exists_intercalate_eq_cons h
    rw [toString_of_names_ne_nil h]
    cases p.root <;> simp [Route.ofText, PathRoot.text, String.toList_append, hcs, hc]

theorem root_ofString_toString (p : Path) : (ofString (toString p)).root = p.root := by
  by_cases h : p.names = []
  · rw [toString_of_names_eq_nil h]
    cases p.root <;> decide
  · obtain ⟨c, cs, hcs, hc⟩ := exists_intercalate_eq_cons h
    rw [toString_of_names_ne_nil h]
    cases p.root <;>
      simp [ofString, PathRoot.text, PathRoot.ofChars, String.toList_append, hcs, hc]

theorem namesOf_toList (s : String) :
    namesOf s.toList = (Route.ofText s).names.filter (· ≠ ".") := by
  simp only [namesOf, Route.ofText, List.filter_filter, Bool.decide_and]
  exact List.filter_congr fun n _ => Bool.and_comm _ _

theorem names_ofString_toString (p : Path) : (ofString (toString p)).names = p.names := by
  change namesOf (toString p).toList = p.names
  rw [namesOf_toList]
  by_cases h : p.names = []
  · rw [names_ofText_of_eq_nil h, h]
    cases p.root <;> rfl
  · rw [names_ofText_of_ne_nil h, List.filter_eq_self]
    intro n hn
    exact decide_eq_true (p.normal n hn).2.1

/-- A path in normal form is read back from its text. -/
theorem ofString_toString (p : Path) : ofString (toString p) = p := by
  have hroot := root_ofString_toString p
  have hnames := names_ofString_toString p
  generalize ofString (toString p) = q at hroot hnames
  obtain ⟨root, names, normal⟩ := p
  obtain ⟨root', names', normal'⟩ := q
  obtain rfl : root' = root := hroot
  obtain rfl : names' = names := hnames
  rfl

end Path

/-! ## The way to a file -/

namespace FileTree

variable {t : FileTree} {aim : Aim} {links : Nat} {closed : Bool} {here : Location}
  {names rest : List String} {place : Place} {p : Path} {content : Bytes}

namespace Leads

theorem isSearchable (h : Leads t aim links closed here names place) (hne : names ≠ []) :
    t.isSearchable here = true := by
  cases h with
  | stay => exact absurd rfl hne
  | same hs => exact hs
  | outer hs => exact hs
  | vacant _ hs => exact hs
  | entry _ hs => exact hs
  | enter hs => exact hs
  | follow hs => exact hs

/-- Every name but the last leads to a directory. -/
theorem directory_of_append (h : Leads t aim links closed here (names ++ rest) place)
    (hrest : rest ≠ []) (closed' : Bool) :
    ∃ l mode, Leads t .entry links closed' here names (.found l (.directory mode)) := by
  generalize hall : names ++ rest = all at h
  induction h generalizing names closed' with
  | stay => simp_all
  | @same links closed here rest' place hs h ih =>
      cases names with
      | nil => exact ⟨_, _, .stay links closed' here⟩
      | cons n names =>
          obtain ⟨rfl, htail⟩ := List.cons.inj hall
          obtain ⟨l, mode, hl⟩ := ih closed' htail
          exact ⟨l, mode, .same hs hl⟩
  | @outer links closed here rest' place hs h ih =>
      cases names with
      | nil => exact ⟨_, _, .stay links closed' here⟩
      | cons n names =>
          obtain ⟨rfl, htail⟩ := List.cons.inj hall
          obtain ⟨l, mode, hl⟩ := ih closed' htail
          exact ⟨l, mode, .outer hs hl⟩
  | @vacant links closed here n hs =>
      cases names with
      | nil => exact ⟨_, _, .stay links closed' here⟩
      | cons m names => simp_all
  | @entry links closed here n e hs =>
      cases names with
      | nil => exact ⟨_, _, .stay links closed' here⟩
      | cons m names => simp_all
  | @enter links closed here n rest' mode place hs hn hrest' hsize hl h ih =>
      cases names with
      | nil => exact ⟨_, _, .stay links closed' here⟩
      | cons m names =>
          obtain ⟨rfl, htail⟩ := List.cons.inj hall
          by_cases hnames : names = []
          · subst hnames
            exact ⟨_, mode, .entry links hs hn (by nofun) hsize hl trivial⟩
          · obtain ⟨l, mode', hl'⟩ := ih closed' htail
            exact ⟨l, mode', .enter hs hn hnames hsize hl hl'⟩
  | @follow links closed here n rest' target place hs hn hlast hsize hl h ih =>
      cases names with
      | nil => exact ⟨_, _, .stay _ closed' here⟩
      | cons m names =>
          obtain ⟨rfl, htail⟩ := List.cons.inj hall
          have hall' : (Route.ofText target).names ++ names ++ rest =
              (Route.ofText target).names ++ rest' := by
            rw [List.append_assoc, ← htail]
            rfl
          obtain ⟨l, mode', hl'⟩ :=
            ih (closed' || names.isEmpty && (Route.ofText target).closed) hall'
          exact ⟨l, mode', .follow hs hn (fun _ => ⟨by nofun, rfl⟩) hsize hl hl'⟩

end Leads

theorem names_ne_nil_of_readFile (h : t.readFile (toString p) = .ok content) : p.names ≠ [] := by
  intro hnil
  obtain ⟨l, mode, hlocate⟩ := readFile_eq_ok_iff.mp h
  obtain ⟨-, -, hleads⟩ := locate_eq_ok_iff.mp hlocate
  have hwalk := hleads.walk_eq
  rw [Path.names_ofText_of_eq_nil hnil, walk_eq_along] at hwalk
  split at hwalk
  · have hs := hleads.isSearchable (by simp [Path.names_ofText_of_eq_nil hnil, *])
    simp [along, hs] at hwalk
  · simp [along] at hwalk

/-- Around a file there is a directory. -/
theorem isDirectory_parent_of_readFile (h : t.readFile (toString p) = .ok content) :
    t.isDirectory (toString p.parent) = .ok true := by
  have hne := names_ne_nil_of_readFile h
  obtain ⟨n, hn⟩ := Path.names_eq_parent_append hne
  obtain ⟨l, mode, hlocate⟩ := readFile_eq_ok_iff.mp h
  obtain ⟨-, hsize, hleads⟩ := locate_eq_ok_iff.mp hlocate
  rw [Path.names_ofText_of_ne_nil hne, hn, Path.fromRoot_ofText] at hleads
  have hempty : (toString p.parent).isEmpty = false := by
    simpa using p.parent.toString_ne_empty
  have hparent : ∃ l mode, Leads t .entry linkLimit (Route.ofText (toString p.parent)).closed
      (t.startOf (decide (p.root ≠ .relative))) (Route.ofText (toString p.parent)).names
        (.found l (.directory mode)) := by
    by_cases hnil : p.parent.names = []
    · have hs := hleads.isSearchable (by simp)
      rw [Path.names_ofText_of_eq_nil hnil]
      split
      · exact ⟨_, _, .same hs (.stay _ _ _)⟩
      · exact ⟨_, _, .stay _ _ _⟩
    · rw [Path.names_ofText_of_ne_nil hnil]
      exact hleads.directory_of_append (List.cons_ne_nil n []) _
  obtain ⟨l', mode', hparent⟩ := hparent
  refine isDirectory_eq_true_iff.mpr ⟨l', mode', locate_eq_ok_iff.mpr
    ⟨hempty, Nat.lt_of_le_of_lt (Path.utf8ByteSize_parent_le hne) hsize, ?_⟩⟩
  rw [Path.fromRoot_ofText]
  exact hparent

end FileTree

end Strongbox
