import Strongbox.Files.Calls

/-! # Walks through a file tree

`Leads` gives the rules by which a path leads to a place, one for each kind of step, without
reference to the function that walks. What is known about walks in one tree is carried over to
another by induction on these rules: a tree that only has more entries leads wherever the smaller
one led, and a place that was free is found once something stands there. -/

namespace Strongbox

/-- Whether the walk ends at an entry under the last name, as far as its kind goes. -/
def Aim.StopsAt (aim : Aim) (closed : Bool) : Entry → Prop
  | .directory _ => True
  | .file _ _ => ¬ (closed = true ∧ aim.slash = .demandsDirectory)
  | .link _ => aim.follows closed = false

namespace FileTree

/-- A name that stands for an entry, not for the directory itself or the one around it. -/
def IsName (n : String) : Prop :=
  n ≠ "." ∧ n ≠ ".."

/-- The rules of a walk along names from a directory, with the links it may still follow. -/
inductive Leads (t : FileTree) (aim : Aim) :
    Nat → Bool → Location → List String → Place → Prop where
  | stay (links : Nat) (closed : Bool) (here : Location) :
      Leads t aim links closed here [] (.found here (.directory (t.modeAt here)))
  | same {links : Nat} {closed : Bool} {here : Location} {rest : List String} {place : Place}
      (hs : t.isSearchable here = true) (h : Leads t aim links closed here rest place) :
      Leads t aim links closed here ("." :: rest) place
  | outer {links : Nat} {closed : Bool} {here : Location} {rest : List String} {place : Place}
      (hs : t.isSearchable here = true) (h : Leads t aim links closed here.tail rest place) :
      Leads t aim links closed here (".." :: rest) place
  | vacant (links : Nat) {closed : Bool} {here : Location} {n : String}
      (hs : t.isSearchable here = true) (hn : IsName n)
      (hslash : ¬ (closed = true ∧ aim.slash = .refused)) (hsize : n.utf8ByteSize ≤ nameLimit)
      (hl : t.lookup (n :: here) = none) :
      Leads t aim links closed here [n] (.vacant (n :: here))
  | entry (links : Nat) {closed : Bool} {here : Location} {n : String} {e : Entry}
      (hs : t.isSearchable here = true) (hn : IsName n)
      (hslash : ¬ (closed = true ∧ aim.slash = .refused)) (hsize : n.utf8ByteSize ≤ nameLimit)
      (hl : t.lookup (n :: here) = some e) (hstop : aim.StopsAt closed e) :
      Leads t aim links closed here [n] (.found (n :: here) e)
  | enter {links : Nat} {closed : Bool} {here : Location} {n : String} {rest : List String}
      {mode : Nat} {place : Place} (hs : t.isSearchable here = true) (hn : IsName n)
      (hrest : rest ≠ []) (hsize : n.utf8ByteSize ≤ nameLimit)
      (hl : t.lookup (n :: here) = some (.directory mode))
      (h : Leads t aim links closed (n :: here) rest place) :
      Leads t aim links closed here (n :: rest) place
  | follow {links : Nat} {closed : Bool} {here : Location} {n : String} {rest : List String}
      {target : String} {place : Place} (hs : t.isSearchable here = true) (hn : IsName n)
      (hlast : rest = [] →
        ¬ (closed = true ∧ aim.slash = .refused) ∧ aim.follows closed = true)
      (hsize : n.utf8ByteSize ≤ nameLimit) (hl : t.lookup (n :: here) = some (.link target))
      (h : Leads t aim links (closed || rest.isEmpty && (Route.ofText target).closed)
        (targetStart (Route.ofText target) here) ((Route.ofText target).names ++ rest) place) :
      Leads t aim (links + 1) closed here (n :: rest) place

variable {t t' : FileTree} {aim aim' : Aim} {links : Nat} {closed : Bool} {here : Location}
  {names : List String} {place : Place}

/-! ## The rules describe the walk -/

/-- What a walk does at a link while it may follow so many of them. -/
def onLink (t : FileTree) (aim : Aim) (closed : Bool) : Nat → LinkRule
  | 0 => fun _ _ _ => .error .tooManyLinks
  | links + 1 => fun target here rest =>
    t.walk aim links (closed || rest.isEmpty && (Route.ofText target).closed)
      (targetStart (Route.ofText target) here) ((Route.ofText target).names ++ rest)

theorem walk_eq_along (t : FileTree) (aim : Aim) (links : Nat) (closed : Bool) :
    t.walk aim links closed = t.along aim closed (t.onLink aim closed links) := by
  cases links <;> rfl

theorem along_last {onLink : LinkRule} {n : String} (hs : t.isSearchable here = true)
    (hn : IsName n) : t.along aim closed onLink here [n] = t.arrive aim closed onLink here n := by
  simp [along, hs, hn.1, hn.2]

theorem along_cons {onLink : LinkRule} {n : String} {rest : List String}
    (hs : t.isSearchable here = true) (hn : IsName n) (hrest : rest ≠ [])
    (hsize : n.utf8ByteSize ≤ nameLimit) :
    t.along aim closed onLink here (n :: rest) =
      match t.lookup (n :: here) with
      | none => .error .noEntry
      | some (.directory _) => t.along aim closed onLink (n :: here) rest
      | some (.file _ _) => .error .notDirectory
      | some (.link target) => onLink target here rest := by
  have hlast : rest.isEmpty = false := by simpa using hrest
  rw [along, if_neg (by simp [hs]), if_neg hn.1, if_neg hn.2, if_neg (by simp [hlast])]
  refine (if_neg (Nat.not_lt.mpr hsize)).trans ?_
  cases t.lookup (n :: here) with
  | none => rfl
  | some e => cases e <;> rfl

theorem arrive_eq {onLink : LinkRule} {n : String}
    (hslash : ¬ (closed = true ∧ aim.slash = .refused)) (hsize : n.utf8ByteSize ≤ nameLimit) :
    t.arrive aim closed onLink here n =
      match t.lookup (n :: here) with
      | none => .ok (.vacant (n :: here))
      | some (.directory mode) => .ok (.found (n :: here) (.directory mode))
      | some (.file mode content) =>
        if closed = true ∧ aim.slash = .demandsDirectory then .error .notDirectory
        else .ok (.found (n :: here) (.file mode content))
      | some (.link target) =>
        if aim.follows closed then onLink target here []
        else .ok (.found (n :: here) (.link target)) := by
  rw [arrive, if_neg (by simpa using hslash), if_neg (Nat.not_lt.mpr hsize)]
  cases t.lookup (n :: here) with
  | none => rfl
  | some e => cases e <;> simp

theorem Leads.walk_eq (h : Leads t aim links closed here names place) :
    t.walk aim links closed here names = .ok place := by
  induction h with
  | stay links closed here => rw [walk_eq_along, along]
  | same hs _ ih =>
      rw [walk_eq_along] at ih ⊢
      simpa [along, hs] using ih
  | outer hs _ ih =>
      rw [walk_eq_along] at ih ⊢
      simpa [along, hs] using ih
  | vacant links hs hn hslash hsize hl =>
      rw [walk_eq_along, along_last hs hn, arrive_eq hslash hsize, hl]
  | @entry links closed here n e hs hn hslash hsize hl hstop =>
      rw [walk_eq_along, along_last hs hn, arrive_eq hslash hsize, hl]
      cases e with
      | file mode content => exact if_neg hstop
      | directory mode => rfl
      | link target => simp [show aim.follows closed = false from hstop]
  | enter hs hn hrest hsize hl _ ih =>
      rw [walk_eq_along] at ih ⊢
      rw [along_cons hs hn hrest hsize, hl]
      exact ih
  | @follow links closed here n rest target place hs hn hlast hsize hl _ ih =>
      rw [walk_eq_along]
      cases rest with
      | nil =>
          obtain ⟨hslash, hfollows⟩ := hlast rfl
          rw [along_last hs hn, arrive_eq hslash hsize, hl]
          simpa [hfollows, onLink] using ih
      | cons m rest =>
          rw [along_cons hs hn (List.cons_ne_nil m rest) hsize, hl]
          exact ih

/-- The end of a walk follows the rules if what happens at a link does. -/
theorem leads_of_arrive {n : String} (hs : t.isSearchable here = true) (hn : IsName n)
    (hlink : ∀ target, t.onLink aim closed links target here [] = .ok place →
      t.lookup (n :: here) = some (.link target) → aim.follows closed = true →
        n.utf8ByteSize ≤ nameLimit → ¬ (closed = true ∧ aim.slash = .refused) →
          Leads t aim links closed here [n] place)
    (h : t.arrive aim closed (t.onLink aim closed links) here n = .ok place) :
    Leads t aim links closed here [n] place := by
  by_cases hslash : closed = true ∧ aim.slash = .refused
  · simp [arrive, hslash] at h
  · by_cases hsize : n.utf8ByteSize ≤ nameLimit
    · rw [arrive_eq hslash hsize] at h
      cases hl : t.lookup (n :: here) with
      | none =>
          rw [hl] at h
          obtain rfl := Except.ok.inj h
          exact .vacant links hs hn hslash hsize hl
      | some e =>
          rw [hl] at h
          cases e with
          | directory mode =>
              obtain rfl := Except.ok.inj h
              exact .entry links hs hn hslash hsize hl trivial
          | file mode content =>
              dsimp only at h
              split at h
              · cases h
              · rename_i hstop
                obtain rfl := Except.ok.inj h
                exact .entry links hs hn hslash hsize hl hstop
          | link target =>
              by_cases hfollows : aim.follows closed = true
              · simp only [hfollows, if_true] at h
                exact hlink target h hl hfollows hsize hslash
              · simp only [hfollows, Bool.false_eq_true, if_false] at h
                obtain rfl := Except.ok.inj h
                exact .entry links hs hn hslash hsize hl (Bool.eq_false_iff.mpr hfollows)
    · simp [arrive, hslash, Nat.lt_of_not_le hsize] at h

/-- A walk along names follows the rules if the walks along the targets of links do. -/
theorem leads_of_along
    (hlink : ∀ target here rest, t.onLink aim closed links target here rest = .ok place →
      ∃ fewer, links = fewer + 1 ∧
        Leads t aim fewer (closed || rest.isEmpty && (Route.ofText target).closed)
          (targetStart (Route.ofText target) here) ((Route.ofText target).names ++ rest) place)
    (h : t.along aim closed (t.onLink aim closed links) here names = .ok place) :
    Leads t aim links closed here names place := by
  induction names generalizing here with
  | nil =>
      obtain rfl := Except.ok.inj h
      exact .stay links closed here
  | cons n rest ih =>
      have hs : t.isSearchable here = true := by
        cases hs : t.isSearchable here with
        | true => rfl
        | false => simp [along, hs] at h
      by_cases hdot : n = "."
      · subst hdot
        exact .same hs (ih (by simpa [along, hs] using h))
      by_cases hdots : n = ".."
      · subst hdots
        exact .outer hs (ih (by simpa [along, hs] using h))
      have hn : IsName n := ⟨hdot, hdots⟩
      by_cases hrest : rest = []
      · subst hrest
        rw [along_last hs hn] at h
        refine leads_of_arrive hs hn ?_ h
        intro target hgo hl hfollows hsize hslash
        obtain ⟨fewer, rfl, hleads⟩ := hlink target here [] hgo
        exact .follow hs hn (fun _ => ⟨hslash, hfollows⟩) hsize hl hleads
      have hsize : n.utf8ByteSize ≤ nameLimit := by
        apply Nat.not_lt.mp
        intro hlong
        simp [along, hs, hdot, hdots, hrest, hlong] at h
      rw [along_cons hs hn hrest hsize] at h
      cases hl : t.lookup (n :: here) with
      | none => simp [hl] at h
      | some e =>
          rw [hl] at h
          cases e with
          | directory mode => exact .enter hs hn hrest hsize hl (ih h)
          | file mode content => cases h
          | link target =>
              obtain ⟨fewer, rfl, hleads⟩ := hlink target here rest h
              exact .follow hs hn (fun hnil => absurd hnil hrest) hsize hl hleads

theorem leads_of_walk_eq (h : t.walk aim links closed here names = .ok place) :
    Leads t aim links closed here names place := by
  induction links generalizing closed here names with
  | zero =>
      rw [walk_eq_along] at h
      refine leads_of_along ?_ h
      intro target here rest hgo
      cases hgo
  | succ links ih =>
      rw [walk_eq_along] at h
      refine leads_of_along ?_ h
      intro target here rest hgo
      exact ⟨links, rfl, ih hgo⟩

theorem walk_eq_ok_iff :
    t.walk aim links closed here names = .ok place ↔ Leads t aim links closed here names place :=
  ⟨leads_of_walk_eq, Leads.walk_eq⟩

/-! ## Trees with more entries -/

/-- Every entry is still there, and a directory where nothing was is as it is when just made. -/
structure Extends (t t' : FileTree) : Prop where
  workingDirectory : t'.workingDirectory = t.workingDirectory
  keeps : ∀ l e, t.lookup l = some e → t'.lookup l = some e
  fresh : ∀ l mode, t.lookup l = none → t'.lookup l = some (.directory mode) →
    mode = directoryMode

namespace Extends

theorem refl (t : FileTree) : Extends t t :=
  ⟨rfl, fun _ _ h => h, fun _ _ hn hd => by simp [hn] at hd⟩

theorem trans {t'' : FileTree} (h : Extends t t') (h' : Extends t' t'') : Extends t t'' := by
  refine ⟨h'.workingDirectory.trans h.workingDirectory, ?_, ?_⟩
  · intro l e hl
    exact h'.keeps l e (h.keeps l e hl)
  · intro l mode hnone hdir
    cases hl : t'.lookup l with
    | none => exact h'.fresh l mode hl hdir
    | some e =>
        have he := h'.keeps l e hl
        rw [hdir] at he
        obtain rfl := Option.some.inj he
        exact h.fresh l mode hnone hl

/-- What stands where nothing was does not change how a directory is searched. -/
theorem modeAt (h : Extends t t') (l : Location) : t'.modeAt l = t.modeAt l := by
  unfold FileTree.modeAt
  cases hl : t.lookup l with
  | some e => rw [h.keeps l e hl]
  | none =>
      cases hl' : t'.lookup l with
      | none => rfl
      | some e =>
          cases e with
          | directory mode => exact h.fresh l mode hl hl'
          | file mode content => rfl
          | link target => rfl

theorem isSearchable (h : Extends t t') {l : Location} (hs : t.isSearchable l = true) :
    t'.isSearchable l = true := by
  unfold FileTree.isSearchable at hs ⊢
  rwa [h.modeAt l]

theorem of_same (hdir : t'.workingDirectory = t.workingDirectory)
    (hsame : ∀ l, t'.lookup l = t.lookup l) : Extends t t' := by
  refine ⟨hdir, ?_, ?_⟩
  · intro l e hl
    rw [hsame, hl]
  · intro l mode hnone hl
    rw [hsame, hnone] at hl
    cases hl

theorem put {l : Location} {e : Entry} (hne : l ≠ []) (hl : t.lookup l = none)
    (he : ∀ mode, e = .directory mode → mode = directoryMode) : Extends t (t.put l e) := by
  refine ⟨rfl, ?_, ?_⟩
  · intro l' e' hl'
    have hdiff : l' ≠ l := by
      rintro rfl
      simp [hl] at hl'
    rw [lookup_put t l l' e hne, if_neg hdiff, hl']
  · intro l' mode hnone hdir
    rw [lookup_put t l l' e hne] at hdir
    split at hdir
    · exact he mode (Option.some.inj hdir)
    · simp [hnone] at hdir

end Extends

namespace Leads

/-- A walk in a tree with more entries ends where it ended, unless something stands there now where
nothing was. -/
theorem extend (h : Leads t aim links closed here names place) (hext : Extends t t')
    (hvacant : ∀ l, place = .vacant l → t'.lookup l = none) :
    Leads t' aim links closed here names place := by
  induction h with
  | stay links closed here =>
      rw [← hext.modeAt here]
      exact .stay links closed here
  | same hs _ ih => exact .same (hext.isSearchable hs) (ih hvacant)
  | outer hs _ ih => exact .outer (hext.isSearchable hs) (ih hvacant)
  | vacant links hs hn hslash hsize hl =>
      exact .vacant links (hext.isSearchable hs) hn hslash hsize (hvacant _ rfl)
  | entry links hs hn hslash hsize hl hstop =>
      exact .entry links (hext.isSearchable hs) hn hslash hsize (hext.keeps _ _ hl) hstop
  | enter hs hn hrest hsize hl _ ih =>
      exact .enter (hext.isSearchable hs) hn hrest hsize (hext.keeps _ _ hl) (ih hvacant)
  | follow hs hn hlast hsize hl _ ih =>
      exact .follow (hext.isSearchable hs) hn hlast hsize (hext.keeps _ _ hl) (ih hvacant)

/-- The free place that a walk ends at, without following a link under the last name, is found
under any aim once an entry stands there. -/
theorem found_of_vacant {l : Location} {e : Entry} (hfollow : ∀ c, aim.follows c = false)
    (h : Leads t aim links closed here names (.vacant l)) (hext : Extends t t')
    (hl : t'.lookup l = some e) (hslash : ¬ (closed = true ∧ aim'.slash = .refused))
    (hstop : aim'.StopsAt closed e) : Leads t' aim' links closed here names (.found l e) := by
  generalize hplace : Place.vacant l = place at h
  induction h with
  | stay links closed here => cases hplace
  | same hs _ ih => exact .same (hext.isSearchable hs) (ih hslash hstop hplace)
  | outer hs _ ih => exact .outer (hext.isSearchable hs) (ih hslash hstop hplace)
  | vacant links hs hn _ hsize _ =>
      obtain rfl := Place.vacant.inj hplace
      exact .entry links (hext.isSearchable hs) hn hslash hsize hl hstop
  | entry links hs hn _ hsize hl hstop => cases hplace
  | enter hs hn hrest hsize hl' _ ih =>
      exact .enter (hext.isSearchable hs) hn hrest hsize (hext.keeps _ _ hl')
        (ih hslash hstop hplace)
  | @follow links closed here n rest target place hs hn hlast hsize hl' _ ih =>
      have hrest : rest ≠ [] := by
        intro hnil
        simp [hfollow] at hlast
        exact hlast hnil
      have hclosed : (closed || rest.isEmpty && (Route.ofText target).closed) = closed := by
        simp [hrest]
      rw [hclosed] at ih
      refine .follow (hext.isSearchable hs) hn (fun hnil => absurd hnil hrest) hsize
        (hext.keeps _ _ hl') ?_
      rw [hclosed]
      exact ih hslash hstop hplace

/-- A walk that ends somewhere meets an entry on the same way if it does not follow a link under
the last name, provided that something stands where the place was free. -/
theorem meets (aim' : Aim) (h : Leads t aim links closed here names place) (hext : Extends t t')
    (hplace : ∀ l, place = .vacant l → ∃ e, t'.lookup l = some e)
    (hfollow : ∀ c, aim'.follows c = false) (hdemand : aim'.slash ≠ .demandsDirectory)
    (hslash : aim'.slash = .refused → aim.slash = .refused) :
    ∃ l e, Leads t' aim' links closed here names (.found l e) := by
  have hstop : ∀ c e, aim'.StopsAt c e := by
    intro c e
    cases e with
    | directory mode => trivial
    | file mode content => exact fun h => hdemand h.2
    | link target => exact hfollow c
  induction h with
  | stay links closed here => exact ⟨_, _, .stay links closed here⟩
  | same hs _ ih =>
      obtain ⟨l, e, hle⟩ := ih hplace
      exact ⟨l, e, .same (hext.isSearchable hs) hle⟩
  | outer hs _ ih =>
      obtain ⟨l, e, hle⟩ := ih hplace
      exact ⟨l, e, .outer (hext.isSearchable hs) hle⟩
  | vacant links hs hn hslash' hsize hl =>
      obtain ⟨e, he⟩ := hplace _ rfl
      exact ⟨_, e, .entry links (hext.isSearchable hs) hn (fun h => hslash' ⟨h.1, hslash h.2⟩)
        hsize he (hstop _ e)⟩
  | @entry links closed here n e hs hn hslash' hsize hl _ =>
      exact ⟨_, e, .entry links (hext.isSearchable hs) hn (fun h => hslash' ⟨h.1, hslash h.2⟩)
        hsize (hext.keeps _ _ hl) (hstop _ e)⟩
  | enter hs hn hrest hsize hl _ ih =>
      obtain ⟨l, e, hle⟩ := ih hplace
      exact ⟨l, e, .enter (hext.isSearchable hs) hn hrest hsize (hext.keeps _ _ hl) hle⟩
  | @follow links closed here n rest target place hs hn hlast hsize hl _ ih =>
      by_cases hrest : rest = []
      · obtain ⟨hslash', -⟩ := hlast hrest
        subst hrest
        exact ⟨_, _, .entry _ (hext.isSearchable hs) hn (fun h => hslash' ⟨h.1, hslash h.2⟩)
          hsize (hext.keeps _ _ hl) (hstop _ (.link target))⟩
      · obtain ⟨l, e, hle⟩ := ih hplace
        exact ⟨l, e, .follow (hext.isSearchable hs) hn (fun hnil => absurd hnil hrest) hsize
          (hext.keeps _ _ hl) hle⟩

/-- Where a file can be written, the path leads for a reader too. -/
theorem entry_of_file (h : Leads t .file links closed here names place) :
    Leads t .entry links closed here names place := by
  induction h with
  | stay links closed here => exact .stay links closed here
  | same hs _ ih => exact .same hs ih
  | outer hs _ ih => exact .outer hs ih
  | vacant links hs hn _ hsize hl => exact .vacant links hs hn (by nofun) hsize hl
  | @entry links closed here n e hs hn hslash hsize hl hstop =>
      refine .entry links hs hn (by nofun) hsize hl ?_
      cases e with
      | directory mode => trivial
      | file mode content => exact fun h => hslash ⟨h.1, rfl⟩
      | link target => exact hstop
  | enter hs hn hrest hsize hl _ ih => exact .enter hs hn hrest hsize hl ih
  | follow hs hn _ hsize hl _ ih => exact .follow hs hn (fun _ => ⟨by nofun, rfl⟩) hsize hl ih

/-- Where a walk ends at a free place, the path leads a reader there too. -/
theorem entry_of_vacant {l : Location} (h : Leads t aim links closed here names (.vacant l)) :
    Leads t .entry links closed here names (.vacant l) := by
  generalize hplace : Place.vacant l = place at h ⊢
  induction h with
  | stay links closed here => cases hplace
  | same hs _ ih => exact .same hs (ih hplace)
  | outer hs _ ih => exact .outer hs (ih hplace)
  | vacant links hs hn _ hsize hl => exact .vacant links hs hn (by nofun) hsize hl
  | entry => cases hplace
  | enter hs hn hrest hsize hl _ ih => exact .enter hs hn hrest hsize hl (ih hplace)
  | follow hs hn _ hsize hl _ ih =>
      exact .follow hs hn (fun _ => ⟨by nofun, rfl⟩) hsize hl (ih hplace)

/-- A file that is written at the free place of a walk is then what the walk leads to. -/
theorem entry_of_written {l : Location} {mode : Nat} {content : Bytes}
    (h : Leads t .file links closed here names (.vacant l)) (hext : Extends t t')
    (hl : t'.lookup l = some (.file mode content)) :
    Leads t' .entry links closed here names (.found l (.file mode content)) := by
  generalize hplace : Place.vacant l = place at h
  induction h with
  | stay links closed here => cases hplace
  | same hs _ ih => exact .same (hext.isSearchable hs) (ih hplace)
  | outer hs _ ih => exact .outer (hext.isSearchable hs) (ih hplace)
  | vacant links hs hn hslash hsize _ =>
      obtain rfl := Place.vacant.inj hplace
      -- No file can be written under a path that a slash ends.
      have hstop : Aim.entry.StopsAt _ (.file mode content) := fun h => hslash ⟨h.1, rfl⟩
      exact .entry links (hext.isSearchable hs) hn (by nofun) hsize hl hstop
  | entry links hs hn _ hsize hl hstop => cases hplace
  | enter hs hn hrest hsize hl' _ ih =>
      exact .enter (hext.isSearchable hs) hn hrest hsize (hext.keeps _ _ hl') (ih hplace)
  | follow hs hn hlast hsize hl' _ ih =>
      refine .follow (hext.isSearchable hs) hn ?_ hsize (hext.keeps _ _ hl') (ih hplace)
      intro _
      exact ⟨by nofun, rfl⟩

theorem closed_eq_false {l : Location} (haim : aim.slash = .refused)
    (h : Leads t aim links closed here names (.vacant l)) : closed = false := by
  generalize hplace : Place.vacant l = place at h
  induction h with
  | stay links closed here => cases hplace
  | same _ _ ih => exact ih hplace
  | outer _ _ ih => exact ih hplace
  | vacant _ _ _ hslash => exact Bool.eq_false_iff.mpr fun hc => hslash ⟨hc, haim⟩
  | entry => cases hplace
  | enter _ _ _ _ _ _ ih => exact ih hplace
  | follow _ _ _ _ _ _ ih => exact (Bool.or_eq_false_iff.mp (ih hplace)).1

theorem lookup_vacant {l : Location} (h : Leads t aim links closed here names (.vacant l)) :
    l ≠ [] ∧ t.lookup l = none := by
  generalize hplace : Place.vacant l = place at h
  induction h with
  | stay links closed here => cases hplace
  | same _ _ ih => exact ih hplace
  | outer _ _ ih => exact ih hplace
  | vacant _ _ _ _ _ hl =>
      obtain rfl := Place.vacant.inj hplace
      exact ⟨List.cons_ne_nil _ _, hl⟩
  | entry => cases hplace
  | enter _ _ _ _ _ _ ih => exact ih hplace
  | follow _ _ _ _ _ _ ih => exact ih hplace

/-- A directory may also be found because the walk stays where it is. -/
theorem lookup_found {l : Location} {e : Entry}
    (h : Leads t aim links closed here names (.found l e)) :
    t.lookup l = some e ∨ e = .directory (t.modeAt l) := by
  generalize hplace : Place.found l e = place at h
  induction h with
  | stay links closed here =>
      obtain ⟨rfl, rfl⟩ := Place.found.inj hplace
      exact .inr rfl
  | same _ _ ih => exact ih hplace
  | outer _ _ ih => exact ih hplace
  | vacant => cases hplace
  | entry _ _ _ _ _ hl =>
      obtain ⟨rfl, rfl⟩ := Place.found.inj hplace
      exact .inl hl
  | enter _ _ _ _ _ _ ih => exact ih hplace
  | follow _ _ _ _ _ _ ih => exact ih hplace

end Leads

end FileTree

end Strongbox
