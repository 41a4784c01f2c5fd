import Strongbox.Files.Canonical
import Strongbox.Proofs.Files.Directories

/-! # The outline of a file tree

An outline has everything that a tree has except what the files hold, of which only the size is
left. Nothing that is done with paths depends on more than the outline: done on the outline, it comes
to the outline of what it comes to on the tree. -/

namespace Strongbox

/-- As many zeros. -/
def Bytes.blank (bs : Bytes) : Bytes :=
  List.replicate bs.length 0

theorem Bytes.blank_eq_iff {a b : Bytes} : blank a = blank b ↔ a.length = b.length := by
  constructor
  · intro h
    simpa [blank] using congrArg List.length h
  · intro h
    rw [blank, blank, h]

namespace AssocList

variable {κ α β : Type} [DecidableEq κ]

theorem map_put (f : α → β) (k : κ) (v : α) (entries : List (κ × α)) :
    (put k v entries).map (Prod.map id f) = put k (f v) (entries.map (Prod.map id f)) := by
  induction entries with
  | nil => rfl
  | cons e entries ih =>
      obtain ⟨k', v'⟩ := e
      simp only [put, List.map_cons, Prod.map_apply, id_eq]
      split
      · rfl
      · rw [List.map_cons, ih]
        rfl

theorem map_remove (f : α → β) (k : κ) (entries : List (κ × α)) :
    (remove k entries).map (Prod.map id f) = remove k (entries.map (Prod.map id f)) := by
  induction entries with
  | nil => rfl
  | cons e entries ih =>
      obtain ⟨k', v'⟩ := e
      simp only [remove, List.map_cons, Prod.map_apply, id_eq]
      split
      · exact ih
      · rw [List.map_cons, ih]
        rfl

omit [DecidableEq κ] in
theorem lookup_map (f : α → β) [BEq κ] (k : κ) (entries : List (κ × α)) :
    (entries.map (Prod.map id f)).lookup k = (entries.lookup k).map f := by
  induction entries with
  | nil => rfl
  | cons e entries ih =>
      rw [List.map_cons, List.lookup_cons, List.lookup_cons, ih, Prod.map_fst, id_eq]
      split <;> rfl

end AssocList

namespace Entry

def outline : Entry → Entry
  | file mode content => file mode (Bytes.blank content)
  | e => e

theorem isDirectory_outline (e : Entry) : e.outline.isDirectory = e.isDirectory := by
  cases e <;> rfl

end Entry

def Place.outline : Place → Place
  | .found l e => .found l e.outline
  | .vacant l => .vacant l

namespace FileTree

def outline (t : FileTree) : FileTree :=
  { t with entries := t.entries.map (Prod.map id Entry.outline) }

variable (t : FileTree)

theorem lookup_outline (l : Location) : t.outline.lookup l = (t.lookup l).map Entry.outline := by
  cases l with
  | nil => rfl
  | cons n rest => exact AssocList.lookup_map _ _ _

theorem outline_put (l : Location) (e : Entry) : (t.put l e).outline = t.outline.put l e.outline := by
  rw [outline, put, outline, put, AssocList.map_put]

theorem outline_remove (l : Location) : (t.remove l).outline = t.outline.remove l := by
  rw [outline, remove, outline, remove, AssocList.map_remove]

/-! ## Walks -/

theorem modeAt_outline (l : Location) : t.outline.modeAt l = t.modeAt l := by
  rw [modeAt, modeAt, lookup_outline]
  cases t.lookup l with
  | none => rfl
  | some e => cases e <;> rfl

theorem isSearchable_outline (l : Location) : t.outline.isSearchable l = t.isSearchable l := by
  rw [isSearchable, isSearchable, modeAt_outline]

section

variable {onLink onLink' : LinkRule}

theorem arrive_outline (aim : Aim) (closed : Bool)
    (hlink : ∀ target here rest,
      onLink' target here rest = (onLink target here rest).map Place.outline)
    (here : Location) (n : String) :
    t.outline.arrive aim closed onLink' here n =
      (t.arrive aim closed onLink here n).map Place.outline := by
  rw [arrive, arrive, lookup_outline]
  split
  · rfl
  · split
    · rfl
    · cases t.lookup (n :: here) with
      | none => rfl
      | some e =>
          cases e with
          | directory mode => rfl
          | file mode content =>
              simp only [Option.map_some, Entry.outline]
              split <;> rfl
          | link target =>
              simp only [Option.map_some, Entry.outline, hlink]
              split <;> rfl

theorem along_outline (aim : Aim) (closed : Bool)
    (hlink : ∀ target here rest,
      onLink' target here rest = (onLink target here rest).map Place.outline)
    (here : Location) (names : List String) :
    t.outline.along aim closed onLink' here names =
      (t.along aim closed onLink here names).map Place.outline := by
  induction names generalizing here with
  | nil =>
      rw [along, along, modeAt_outline]
      rfl
  | cons n rest ih =>
      rw [along, along, isSearchable_outline, lookup_outline, arrive_outline t aim closed hlink]
      split
      · rfl
      · split
        · exact ih here
        · split
          · exact ih here.tail
          · split
            · rfl
            · split
              · rfl
              · cases t.lookup (n :: here) with
                | none => rfl
                | some e =>
                    cases e with
                    | directory mode => exact ih (n :: here)
                    | file mode content => rfl
                    | link target => exact hlink target here rest

end

theorem walk_outline (aim : Aim) (links : Nat) (closed : Bool) (here : Location)
    (names : List String) :
    t.outline.walk aim links closed here names =
      (t.walk aim links closed here names).map Place.outline := by
  induction links generalizing closed here names with
  | zero =>
      let refusal : LinkRule := fun _ _ _ => .error .tooManyLinks
      have hlink : ∀ target here rest,
          refusal target here rest = (refusal target here rest).map Place.outline :=
        fun _ _ _ => rfl
      exact t.along_outline aim closed hlink here names
  | succ links ih =>
      exact t.along_outline aim closed (fun target here rest => ih _ _ _) here names

theorem locate_outline (aim : Aim) (p : String) :
    t.outline.locate aim p = (t.locate aim p).map Place.outline := by
  rw [locate, locate]
  split
  · rfl
  · split
    · rfl
    · exact t.walk_outline aim _ _ _ _

/-! ## Calls -/

theorem status_outline (aim : Aim) (p : String) :
    t.outline.status aim p = (t.status aim p).map Entry.outline := by
  rw [status, status, locate_outline]
  cases t.locate aim p with
  | error code => rfl
  | ok place => cases place <;> rfl

theorem leadsTo_outline {kind : Entry → Bool} (hkind : ∀ e, kind e.outline = kind e) (p : String) :
    t.outline.leadsTo kind p = t.leadsTo kind p := by
  rw [leadsTo, leadsTo, status_outline]
  cases t.status .entry p with
  | error code => rfl
  | ok e => exact congrArg Except.ok (hkind e)

theorem pathExists_outline (p : String) : t.outline.pathExists p = t.pathExists p :=
  t.leadsTo_outline (fun _ => rfl) p

theorem isDirectory_outline (p : String) : t.outline.isDirectory p = t.isDirectory p :=
  t.leadsTo_outline Entry.isDirectory_outline p

theorem makeDirectory_outline (p : String) :
    t.outline.makeDirectory p = (t.makeDirectory p).map outline := by
  rw [makeDirectory, makeDirectory, locate_outline]
  cases t.locate .name p with
  | error code => rfl
  | ok place =>
      cases place with
      | found l e => rfl
      | vacant l => exact congrArg Except.ok (t.outline_put l (.directory directoryMode)).symm

theorem createFile_outline (p : String) (mode : Nat) :
    t.outline.createFile p mode = (t.createFile p mode).map (Prod.map id outline) := by
  rw [createFile, createFile, locate_outline]
  cases t.locate .newFile p with
  | error code => rfl
  | ok place =>
      cases place with
      | found l e => rfl
      | vacant l => exact congrArg (fun t => Except.ok (l, t)) (t.outline_put l (.file mode [])).symm

theorem outline_fill (l : Location) (content : Bytes) :
    (t.fill l content).outline = t.outline.fill l (Bytes.blank content) := by
  rw [fill, fill, lookup_outline]
  cases t.lookup l with
  | none => rfl
  | some e =>
      cases e with
      | file mode old => exact t.outline_put l _
      | directory mode => rfl
      | link target => rfl

theorem readFile_outline (p : String) :
    t.outline.readFile p = (t.readFile p).map Bytes.blank := by
  rw [readFile, readFile, status_outline]
  cases t.status .entry p with
  | error code => rfl
  | ok e => cases e <;> rfl

theorem writeFile_outline (p : String) (mode : Nat) (content : Bytes) :
    t.outline.writeFile p mode (Bytes.blank content) = (t.writeFile p mode content).map outline := by
  rw [writeFile, writeFile, locate_outline]
  cases t.locate .file p with
  | error code => rfl
  | ok place =>
      cases place with
      | vacant l => exact congrArg Except.ok (t.outline_put l (.file mode content)).symm
      | found l e =>
          cases e with
          | file old _ =>
              change (if grants old writeBit = true then _ else _) =
                Except.map _ (if grants old writeBit = true then _ else _)
              split
              · exact congrArg Except.ok (t.outline_put l (.file old content)).symm
              · rfl
          | directory mode => rfl
          | link target => rfl

theorem changeMode_outline (p : String) (mode : Nat) :
    t.outline.changeMode p mode = (t.changeMode p mode).map outline := by
  rw [changeMode, changeMode, locate_outline]
  cases t.locate .entry p with
  | error code => rfl
  | ok place =>
      cases place with
      | vacant l => rfl
      | found l e =>
          cases l with
          | nil => rfl
          | cons n rest =>
              cases e with
              | file old content =>
                  exact congrArg Except.ok (t.outline_put (n :: rest) (.file mode content)).symm
              | directory old | link target =>
                  exact congrArg Except.ok (t.outline_put (n :: rest) (.directory mode)).symm

theorem unlink_outline (p : String) : t.outline.unlink p = (t.unlink p).map outline := by
  have hremove : ∀ l, (if (Route.ofText p).closed = true then throw SystemCode.notDirectory
      else return t.outline.remove l : Except SystemCode FileTree) =
        (if (Route.ofText p).closed = true then throw SystemCode.notDirectory
          else return t.remove l : Except SystemCode FileTree).map outline := by
    intro l
    split
    · rfl
    · exact congrArg Except.ok (t.outline_remove l).symm
  rw [unlink, unlink, locate_outline]
  cases t.locate .name p with
  | error code => rfl
  | ok place =>
      cases place with
      | vacant l => rfl
      | found l e =>
          cases e with
          | directory mode => rfl
          | file mode content => exact hremove l
          | link target => exact hremove l

/-! ## Directories and what is around them -/

theorem forgive_outline (p : Path) (code : SystemCode) :
    t.outline.forgive p code = t.forgive p code := by
  rw [forgive, forgive, isDirectory_outline]

theorem ensureDirectory_outline (t : FileTree) (p : Path) :
    t.outline.ensureDirectory p =
      ((t.ensureDirectory p).1, (t.ensureDirectory p).2.outline) := by
  fun_induction ensureDirectory t p with
  | case1 p t' hmake =>
      rw [ensureDirectory, makeDirectory_outline, hmake]
      rfl
  | case2 p hmake hnames =>
      rw [ensureDirectory, makeDirectory_outline, hmake]
      simp [Except.map, hnames]
  | case3 p hmake hnames _ e t' hparent ih =>
      rw [hparent] at ih
      rw [ensureDirectory, makeDirectory_outline, hmake]
      simp [Except.map, hnames, ih]
  | case4 p hmake hnames _ t' hparent t'' hagain ih =>
      rw [hparent] at ih
      rw [ensureDirectory, makeDirectory_outline, hmake]
      simp [Except.map, hnames, ih, makeDirectory_outline, hagain]
  | case5 p hmake hnames _ t' hparent hagain ih =>
      rw [hparent] at ih
      rw [ensureDirectory, makeDirectory_outline, hmake]
      simp [Except.map, hnames, ih, makeDirectory_outline, hagain]
  | case6 p hmake hnames _ t' hparent code hcode hagain ih =>
      rw [hparent] at ih
      rw [ensureDirectory, makeDirectory_outline, hmake]
      simp [Except.map, hnames, ih, makeDirectory_outline, hagain, forgive_outline]
  | case7 p code hcode hmake =>
      rw [ensureDirectory, makeDirectory_outline, hmake]
      simp [Except.map, forgive_outline]

/-! ## Canonical locations -/

theorem resolveAlong_outline (onLink : LinkResolver) (stem : Stem) (names : List String) :
    t.outline.resolveAlong onLink stem names = t.resolveAlong onLink stem names := by
  induction names generalizing stem with
  | nil => rfl
  | cons n rest ih =>
      rw [resolveAlong, resolveAlong, status_outline]
      split
      · exact ih stem
      · split
        · exact ih stem.outer
        · split
          · rfl
          · cases t.status .status (stem.push n).text with
            | error code => exact ih (stem.push n)
            | ok e =>
                cases e with
                | file mode content => exact ih (stem.push n)
                | directory mode => exact ih (stem.push n)
                | link target =>
                    simp only [Except.map, Entry.outline]
                    split
                    · exact ih _
                    · rfl
                    · rfl

theorem resolveWithin_outline (depth : Nat) (pending : List Stem) :
    t.outline.resolveWithin depth pending = t.resolveWithin depth pending := by
  induction depth generalizing pending with
  | zero =>
      funext stem names
      exact t.resolveAlong_outline _ stem names
  | succ depth ih =>
      funext stem names
      rw [resolveWithin, resolveWithin]
      simp only [ih]
      exact t.resolveAlong_outline _ stem names

theorem canonical_outline (p : Path) : t.outline.canonical p = t.canonical p := by
  have hresolved : t.outline.resolved p = t.resolved p := by
    rw [resolved, resolved, resolveWithin_outline, resolveDepth, outline, List.length_map]
    rfl
  rw [canonical, canonical, hresolved]
  refine bind_congr fun l => ?_
  simp only [status_outline]
  cases t.status .entry (locationText l) with
  | error code => rfl
  | ok e => rfl

end FileTree

end Strongbox
