import Strongbox.KeyFile
import Strongbox.Proofs.Files.Directories

/-! # Several processes at work on one key file

Each process goes through the stages of its own run, and the turns come in any order. At most one
process makes the file, and its octets are never replaced. A process that reads the file before
they have been written gets nothing. -/

namespace Strongbox

open FileTree

/-- A process with its own surroundings, and what it does next. -/
structure Process where
  ambient : Ambient
  move : KeyFile.Move

/-- The processes and the files they share. -/
structure Processes where
  members : List Process
  files : FileTree

/-- The next stage of a process that meets no faults. -/
def Process.act (path : Path) (p : Process) (files : FileTree) : Process × FileTree :=
  match p.move with
  | .ended _ => (p, files)
  | .next stage =>
    let (move, w) := KeyFile.advance path {} stage ⟨p.ambient, files⟩
    (⟨w.ambient, move⟩, w.files)

namespace Processes

/-- All processes at the start of their runs. -/
def start (ambients : List Ambient) (files : FileTree) : Processes where
  members := ambients.map fun ambient => ⟨ambient, .next .parents⟩
  files

def turn (path : Path) (s : Processes) (i : Nat) : Processes :=
  match s.members[i]? with
  | none => s
  | some p => ⟨s.members.set i (p.act path s.files).1, (p.act path s.files).2⟩

def run (path : Path) (s : Processes) (turns : List Nat) : Processes :=
  turns.foldl (turn path) s

/-- What a process does next. -/
def move? (s : Processes) (i : Nat) : Option KeyFile.Move :=
  s.members[i]?.map Process.move

/-- Only an exclusive creation that succeeds leads to the stream of a new file. -/
def makes : KeyFile.Move → KeyFile.Move → Bool
  | .next (.create _), .next (.stream _ _) => true
  | _, _ => false

/-- Whether the turn of a process makes the file. -/
def creates (path : Path) (s : Processes) (i : Nat) : Bool :=
  match s.members[i]? with
  | none => false
  | some p => makes p.move (p.act path s.files).1.move

/-- The processes whose turns make the file, one after the other. -/
def creators (path : Path) : Processes → List Nat → List Nat
  | _, [] => []
  | s, i :: turns =>
    (if s.creates path i then [i] else []) ++ creators path (s.turn path i) turns

/-- Whether a process is about to read the file while it is empty. -/
def ReadsEmpty (path : Path) (s : Processes) (i : Nat) : Prop :=
  s.move? i = some (.next .load) ∧ s.files.readFile (toString path) = .ok []

/-- The directories above the path can be had, and then no file is found at its end. -/
structure Usable (path : Path) (files made : FileTree) : Prop where
  nul : path.hasNul = false
  parent : files.ensureDirectory path.parent = (.ok (), made)
  absent : made.pathExists (toString path) = .ok false

/-! ## Phases -/

/-- How far the processes have come together. -/
inductive Phase
  | untouched
  | ready
  | empty (maker : Nat) (l : Location) (secret : Bytes)
  | written (maker : Nat) (l : Location) (secret : Bytes)

namespace Phase

def creators : Phase → List Nat
  | untouched | ready => []
  | empty maker _ _ | written maker _ _ => [maker]

theorem length_creators_le (phase : Phase) : phase.creators.length ≤ 1 := by
  cases phase with
  | untouched => exact Nat.zero_le 1
  | ready => exact Nat.zero_le 1
  | empty maker l secret => exact Nat.le_refl 1
  | written maker l secret => exact Nat.le_refl 1

/-- The files in a phase. -/
def Holds (path : Path) (files made : FileTree) : Phase → FileTree → Prop
  | untouched, t => t = files
  | ready, t => t = made
  | empty _ l secret, t =>
    secret.length = Key.size ∧ ∃ mode, Created (toString path) made l mode [] t
  | written _ l secret, t =>
    secret.length = Key.size ∧ ∃ mode, Created (toString path) made l mode secret t

/-- What a process may do next in a phase; those of which `early` holds may have read nothing. -/
def Allows (path : Path) (early : Nat → Prop) (phase : Phase) (i : Nat) : KeyFile.Move → Prop
  | .next .parents => True
  | .next .check | .next .draw => phase ≠ .untouched
  | .next .load => phase.creators ≠ []
  | .next (.create secret) => phase ≠ .untouched ∧ secret.length = Key.size
  | .next (.stream secret l) | .next (.write secret l) => phase = .empty i l secret
  | .next (.close secret) | .next (.harden secret) => ∃ l, phase = .written i l secret
  | .next (.discard _) => False
  | .ended (.ok octets) => (∃ maker l, phase = .written maker l octets) ∨ octets = [] ∧ early i
  | .ended (.error a) =>
    ∃ code, a = .failure (.keyStore (toString path) (errorAt path code))

/-- What the turn of a process can do to the phase. -/
inductive Step (i : Nat) : Phase → Phase → Prop
  | stay (phase : Phase) : Step i phase phase
  | prepare : Step i untouched ready
  | create (l : Location) (secret : Bytes) : Step i ready (empty i l secret)
  | write (l : Location) (secret : Bytes) : Step i (empty i l secret) (written i l secret)

/-! ## What one turn does -/

variable {path : Path} {files made t : FileTree} {early : Nat → Prop} {phase phase' : Phase}
  {i : Nat} {w : World} {secret : Bytes} {l : Location}

theorem Holds.extends_ (h : phase.Holds path files made t) (hne : phase ≠ untouched) :
    Extends made t := by
  cases phase with
  | untouched => exact absurd rfl hne
  | ready =>
      obtain rfl : t = made := h
      exact .refl t
  | empty maker l secret =>
      obtain ⟨-, mode, hcreated⟩ := h
      exact hcreated.extends_
  | written maker l secret =>
      obtain ⟨-, mode, hcreated⟩ := h
      exact hcreated.extends_

theorem Holds.ready (h : phase.Holds path files made t) (hne : phase ≠ untouched)
    (hmade : phase.creators = []) : phase = ready ∧ t = made := by
  cases phase with
  | untouched => exact absurd rfl hne
  | ready => exact ⟨rfl, h⟩
  | empty maker l secret => cases hmade
  | written maker l secret => cases hmade

/-- Once the file has been made it can be told where it is and what is in it. -/
theorem Holds.created (h : phase.Holds path files made t) (hmade : phase.creators ≠ []) :
    ∃ l mode content, Created (toString path) made l mode content t ∧
      (content = [] ∨ ∃ maker, phase = written maker l content) := by
  cases phase with
  | untouched => exact absurd rfl hmade
  | ready => exact absurd rfl hmade
  | empty maker l secret =>
      obtain ⟨-, mode, hcreated⟩ := h
      exact ⟨l, mode, [], hcreated, .inl rfl⟩
  | written maker l secret =>
      obtain ⟨-, mode, hcreated⟩ := h
      exact ⟨l, mode, secret, hcreated, .inr ⟨maker, rfl⟩⟩

/-- Directories that have been made once are there for every process. -/
theorem Holds.ensureDirectory (husable : Usable path files made)
    (h : phase.Holds path files made t) (hne : phase ≠ untouched) :
    t.ensureDirectory path.parent = (.ok (), t) := by
  have hthere := isDirectory_of_ensureDirectory (t := files) (p := path.parent)
  rw [husable.parent] at hthere
  obtain ⟨l, mode, hlocate⟩ := isDirectory_eq_true_iff.mp (hthere rfl)
  apply ensureDirectory_of_isDirectory
  exact isDirectory_eq_true_iff.mpr ⟨l, mode, locate_found_extend hlocate (h.extends_ hne)⟩

/-- What the turn of a process must lead to, from a stage in a phase. -/
def Proceeds (path : Path) (files made : FileTree) (early : Nat → Prop) (phase : Phase) (i : Nat)
    (stage : KeyFile.Stage) (led : KeyFile.Move × World) : Prop :=
  ∃ phase', Step i phase phase' ∧ phase'.Holds path files made led.2.files ∧
    phase'.Allows path early i led.1 ∧
      phase'.creators = phase.creators ++ if makes (.next stage) led.1 then [i] else []

theorem proceeds_stay {stage : KeyFile.Stage} {led : KeyFile.Move × World}
    (hmakes : makes (.next stage) led.1 = false)
    (hholds : phase.Holds path files made led.2.files)
    (hallows : phase.Allows path early i led.1) :
    Proceeds path files made early phase i stage led :=
  ⟨phase, .stay phase, hholds, hallows, by simp [hmakes]⟩

theorem makeParents_proceeds (husable : Usable path files made)
    (h : phase.Holds path files made w.files) :
    Proceeds path files made early phase i .parents (KeyFile.makeParents path {} w) := by
  have hnul := path.parent_reaches.hasNul husable.nul
  unfold KeyFile.makeParents
  rw [if_neg (by simp [hnul])]
  by_cases hphase : phase = untouched
  · subst hphase
    have hfiles : w.files = files := h
    rw [hfiles, husable.parent]
    exact ⟨ready, .prepare, rfl, by nofun, rfl⟩
  · rw [h.ensureDirectory husable hphase]
    exact proceeds_stay rfl h hphase

theorem lookForFile_proceeds (husable : Usable path files made)
    (h : phase.Holds path files made w.files) (hne : phase ≠ untouched) :
    Proceeds path files made early phase i .check (KeyFile.lookForFile path {} w) := by
  unfold KeyFile.lookForFile
  rw [if_neg (by simp [husable.nul])]
  by_cases hmade : phase.creators = []
  · rw [(h.ready hne hmade).2, husable.absent]
    exact proceeds_stay rfl h hne
  · obtain ⟨l, mode, content, hcreated, -⟩ := h.created hmade
    rw [hcreated.pathExists]
    exact proceeds_stay rfl h hmade

theorem loadFile_proceeds (h : phase.Holds path files made w.files) (hmade : phase.creators ≠ [])
    (hearly : w.files.readFile (toString path) = .ok [] → early i) :
    Proceeds path files made early phase i .load (KeyFile.loadFile path {} w) := by
  obtain ⟨l, mode, content, hcreated, hcontent⟩ := h.created hmade
  unfold KeyFile.loadFile
  rw [hcreated.readFile] at hearly ⊢
  refine proceeds_stay rfl h ?_
  rcases hcontent with rfl | ⟨maker, hphase⟩
  · exact .inr ⟨rfl, hearly rfl⟩
  · exact .inl ⟨maker, l, hphase⟩

theorem drawSecret_proceeds (h : phase.Holds path files made w.files) (hne : phase ≠ untouched) :
    Proceeds path files made early phase i .draw (KeyFile.drawSecret path {} w) :=
  proceeds_stay rfl h ⟨hne, w.ambient.entropy.length_draw Key.size⟩

theorem createFile_eq (hnul : path.hasNul = false) :
    KeyFile.createFile path {} secret w =
      match w.files.createFile (toString path) KeyFile.openMode with
      | .ok (l, files) => (.next (.stream secret l), { w with files })
      | .error code => (KeyFile.Move.unusable path (errorAt path code), w) := by
  have hcreation : KeyFile.creation path {} w.files = (w.files,
      (w.files.createFile (toString path) KeyFile.openMode).mapError (errorAt path)) := rfl
  rw [KeyFile.createFile, if_neg (by simp [hnul]), hcreation]
  cases w.files.createFile (toString path) KeyFile.openMode with
  | error code => rfl
  | ok new => rfl

theorem createFile_proceeds (husable : Usable path files made)
    (h : phase.Holds path files made w.files) (hne : phase ≠ untouched)
    (hsecret : secret.length = Key.size) :
    Proceeds path files made early phase i (.create secret)
      (KeyFile.createFile path {} secret w) := by
  rw [createFile_eq husable.nul]
  cases hcreate : w.files.createFile (toString path) KeyFile.openMode with
  | error code => exact proceeds_stay rfl h ⟨code, rfl⟩
  | ok new =>
      obtain ⟨l, t⟩ := new
      by_cases hmade : phase.creators = []
      · obtain ⟨rfl, hfiles⟩ := h.ready hne hmade
        rw [hfiles] at hcreate
        exact ⟨empty i l secret, .create l secret,
          ⟨hsecret, KeyFile.openMode, created_of_createFile hcreate⟩, rfl, rfl⟩
      · obtain ⟨_, _, _, hcreated, -⟩ := h.created hmade
        rw [hcreated.createFile] at hcreate
        cases hcreate

theorem openStream_proceeds (h : phase.Holds path files made w.files)
    (hphase : phase = empty i l secret) :
    Proceeds path files made early phase i (.stream secret l)
      (KeyFile.openStream {} secret l w) :=
  proceeds_stay rfl h hphase

theorem writeSecret_proceeds (h : phase.Holds path files made w.files)
    (hphase : phase = empty i l secret) :
    Proceeds path files made early phase i (.write secret l)
      (KeyFile.writeSecret {} secret l w) := by
  subst hphase
  obtain ⟨hsecret, mode, hcreated⟩ := h
  exact ⟨written i l secret, .write l secret, ⟨hsecret, mode, hcreated.fill secret⟩, ⟨l, rfl⟩, rfl⟩

theorem closeStream_proceeds (h : phase.Holds path files made w.files)
    (hphase : ∃ l, phase = written i l secret) :
    Proceeds path files made early phase i (.close secret) (KeyFile.closeStream {} secret w) :=
  proceeds_stay rfl h hphase

theorem hardenFile_proceeds (h : phase.Holds path files made w.files)
    (hphase : ∃ l, phase = written i l secret) :
    Proceeds path files made early phase i (.harden secret)
      (KeyFile.hardenFile path {} secret w) := by
  obtain ⟨l, rfl⟩ := hphase
  obtain ⟨hsecret, mode, hcreated⟩ := h
  obtain ⟨t, hchange, hcreated'⟩ := hcreated.changeMode KeyFile.hardMode
  unfold KeyFile.hardenFile KeyFile.hardening
  rw [hchange]
  exact proceeds_stay rfl ⟨hsecret, KeyFile.hardMode, hcreated'⟩ (.inl ⟨i, l, rfl⟩)

theorem advance_proceeds (husable : Usable path files made)
    (h : phase.Holds path files made w.files) {stage : KeyFile.Stage}
    (hallows : phase.Allows path early i (.next stage))
    (hearly : stage = .load → w.files.readFile (toString path) = .ok [] → early i) :
    Proceeds path files made early phase i stage (KeyFile.advance path {} stage w) := by
  cases stage with
  | parents => exact makeParents_proceeds husable h
  | check => exact lookForFile_proceeds husable h hallows
  | load => exact loadFile_proceeds h hallows (hearly rfl)
  | draw => exact drawSecret_proceeds h hallows
  | create secret => exact createFile_proceeds husable h hallows.1 hallows.2
  | stream secret l => exact openStream_proceeds h hallows
  | write secret l => exact writeSecret_proceeds h hallows
  | close secret => exact closeStream_proceeds h hallows
  | discard cause => exact hallows.elim
  | harden secret => exact hardenFile_proceeds h hallows

/-! ## What it leaves to the others -/

namespace Step

theorem ne_untouched (h : Step i phase phase') (hne : phase ≠ untouched) : phase' ≠ untouched := by
  cases h with
  | stay => exact hne
  | prepare => nofun
  | create l secret => nofun
  | write l secret => nofun

theorem creators_ne_nil (h : Step i phase phase') (hmade : phase.creators ≠ []) :
    phase'.creators ≠ [] := by
  cases h with
  | stay => exact hmade
  | prepare => exact absurd rfl hmade
  | create l secret => nofun
  | write l secret => nofun

theorem of_written {maker : Nat} (h : Step i (written maker l secret) phase') :
    phase' = written maker l secret := by
  cases h with
  | stay => rfl

theorem of_empty {maker : Nat} (h : Step i (empty maker l secret) phase') (hne : maker ≠ i) :
    phase' = empty maker l secret := by
  cases h with
  | stay => rfl
  | write l secret => exact absurd rfl hne

end Step

theorem Allows.mono {early' : Nat → Prop} {move : KeyFile.Move}
    (h : phase.Allows path early i move) (hearly : ∀ k, early k → early' k) :
    phase.Allows path early' i move := by
  cases move with
  | next stage => cases stage <;> exact h
  | ended result =>
      cases result with
      | error a => exact h
      | ok octets =>
          rcases h with hkey | ⟨hnil, he⟩
          · exact .inl hkey
          · exact .inr ⟨hnil, hearly i he⟩

/-- What one process may do next is not taken from it by the turn of another. -/
theorem Allows.other {j : Nat} {move : KeyFile.Move} (h : phase.Allows path early j move)
    (hstep : Step i phase phase') (hne : j ≠ i) : phase'.Allows path early j move := by
  cases move with
  | next stage =>
      cases stage with
      | parents => trivial
      | check => exact hstep.ne_untouched h
      | load => exact hstep.creators_ne_nil h
      | draw => exact hstep.ne_untouched h
      | create secret => exact ⟨hstep.ne_untouched h.1, h.2⟩
      | stream secret l =>
          obtain rfl : phase = empty j l secret := h
          exact hstep.of_empty hne
      | write secret l =>
          obtain rfl : phase = empty j l secret := h
          exact hstep.of_empty hne
      | close secret =>
          obtain ⟨l, rfl⟩ := h
          exact ⟨l, hstep.of_written⟩
      | discard cause => exact h.elim
      | harden secret =>
          obtain ⟨l, rfl⟩ := h
          exact ⟨l, hstep.of_written⟩
  | ended result =>
      cases result with
      | error a => exact h
      | ok octets =>
          rcases h with ⟨maker, l, rfl⟩ | hnothing
          · exact .inl ⟨maker, l, hstep.of_written⟩
          · exact .inr hnothing

end Phase

/-! ## The run -/

/-- The files and all processes are as a phase has them. -/
structure InPhase (path : Path) (files made : FileTree) (early : Nat → Prop) (phase : Phase)
    (s : Processes) : Prop where
  holds : phase.Holds path files made s.files
  allows : ∀ i p, s.members[i]? = some p → phase.Allows path early i p.move

variable {path : Path} {files made : FileTree} {early : Nat → Prop} {phase : Phase}
  {s : Processes} {i : Nat}

theorem start_inPhase (ambients : List Ambient) :
    InPhase path files made early .untouched (start ambients files) := by
  refine ⟨rfl, ?_⟩
  intro i p hp
  simp only [start, List.getElem?_map, Option.map_eq_some_iff] at hp
  obtain ⟨ambient, -, rfl⟩ := hp
  trivial

theorem act_proceeds (husable : Usable path files made) {p : Process} {t : FileTree}
    (h : phase.Holds path files made t) (hallows : phase.Allows path early i p.move)
    (hearly : p.move = .next .load → t.readFile (toString path) = .ok [] → early i) :
    ∃ phase', Phase.Step i phase phase' ∧ phase'.Holds path files made (p.act path t).2 ∧
      phase'.Allows path early i (p.act path t).1.move ∧
        phase'.creators =
          phase.creators ++ if makes p.move (p.act path t).1.move then [i] else [] := by
  obtain ⟨ambient, move⟩ := p
  cases move with
  | ended result => exact ⟨phase, .stay phase, h, hallows, (List.append_nil _).symm⟩
  | next stage =>
      apply Phase.advance_proceeds husable h hallows
      rintro rfl
      exact hearly rfl

theorem turn_inPhase (husable : Usable path files made) (h : InPhase path files made early phase s)
    (i : Nat) :
    ∃ phase', Phase.Step i phase phase' ∧
      InPhase path files made (fun j => early j ∨ j = i ∧ ReadsEmpty path s i) phase'
        (s.turn path i) ∧
      phase'.creators = phase.creators ++ if s.creates path i then [i] else [] := by
  unfold turn creates
  cases hp : s.members[i]? with
  | none =>
      refine ⟨phase, .stay phase, ⟨h.holds, ?_⟩, by simp⟩
      intro j q hq
      exact (h.allows j q hq).mono fun k hk => .inl hk
  | some p =>
      have hallows : phase.Allows path (fun j => early j ∨ j = i ∧ ReadsEmpty path s i) i p.move :=
        (h.allows i p hp).mono fun k hk => .inl hk
      have hearly : p.move = .next .load → s.files.readFile (toString path) = .ok [] →
          early i ∨ i = i ∧ ReadsEmpty path s i := by
        intro hmove hread
        exact .inr ⟨rfl, by simp [move?, hp, hmove], hread⟩
      obtain ⟨phase', hstep, hholds, hmove, hcreators⟩ :=
        act_proceeds husable h.holds hallows hearly
      refine ⟨phase', hstep, ⟨hholds, ?_⟩, hcreators⟩
      intro j q hq
      by_cases hj : j = i
      · subst hj
        have hset : (s.members.set j (p.act path s.files).1)[j]? = some q := hq
        rw [List.getElem?_set_self (List.getElem?_eq_some_iff.mp hp).1] at hset
        obtain rfl := Option.some.inj hset
        exact hmove
      · have hq' : s.members[j]? = some q := by
          simpa [List.getElem?_set, Ne.symm hj] using hq
        exact ((h.allows j q hq').mono fun k hk => .inl hk).other hstep hj

/-- Whether one of the turns is that of a process that reads the file while it is empty. -/
def HasReadEmpty (path : Path) (s : Processes) (turns : List Nat) (i : Nat) : Prop :=
  ∃ earlier later, turns = earlier ++ i :: later ∧ ReadsEmpty path (s.run path earlier) i

theorem HasReadEmpty.cons {turns : List Nat} {j : Nat}
    (h : HasReadEmpty path (s.turn path i) turns j) : HasReadEmpty path s (i :: turns) j := by
  obtain ⟨earlier, later, rfl, hreads⟩ := h
  exact ⟨i :: earlier, later, rfl, hreads⟩

theorem run_inPhase (husable : Usable path files made) (turns : List Nat)
    (h : InPhase path files made early phase s) :
    ∃ phase', InPhase path files made (fun j => early j ∨ HasReadEmpty path s turns j) phase'
        (s.run path turns) ∧
      phase'.creators = phase.creators ++ creators path s turns ∧
      ∀ maker l secret, phase = .written maker l secret → phase' = .written maker l secret := by
  -- The reads that came too early are collected from the front, so `early` grows with each turn.
  induction turns generalizing s phase early with
  | nil =>
      refine ⟨phase, ⟨h.holds, ?_⟩, (List.append_nil _).symm, fun _ _ _ hphase => hphase⟩
      intro j p hp
      exact (h.allows j p hp).mono fun k hk => .inl hk
  | cons i turns ih =>
      obtain ⟨phase₁, hstep, hturn, hcreators⟩ := turn_inPhase husable h i
      obtain ⟨phase₂, hrun, hcreators', hwritten⟩ := ih hturn
      refine ⟨phase₂, ⟨hrun.holds, ?_⟩, ?_, ?_⟩
      · intro j p hp
        apply (hrun.allows j p hp).mono
        rintro k ((hk | ⟨rfl, hreads⟩) | hk)
        · exact .inl hk
        · exact .inr ⟨[], turns, rfl, hreads⟩
        · exact .inr hk.cons
      · rw [hcreators', hcreators, List.append_assoc]
        rfl
      · rintro maker l secret rfl
        exact hwritten maker l secret hstep.of_written

/-! ## Agreement -/

theorem Usable.readFile_made_ne (husable : Usable path files made) (octets : Bytes) :
    made.readFile (toString path) ≠ .ok octets := by
  intro hread
  obtain ⟨l, mode, hlocate⟩ := readFile_eq_ok_iff.mp hread
  have hthere := pathExists_eq_true_iff.mpr ⟨l, _, hlocate⟩
  rw [husable.absent] at hthere
  cases hthere

theorem Usable.readFile_ne (husable : Usable path files made) (octets : Bytes) :
    files.readFile (toString path) ≠ .ok octets := by
  intro hread
  obtain ⟨l, mode, hlocate⟩ := readFile_eq_ok_iff.mp hread
  have hmade := ensureDirectory_made files path.parent
  rw [husable.parent] at hmade
  have hlocate' := locate_found_extend hlocate hmade.extends_
  exact husable.readFile_made_ne octets (readFile_eq_ok_iff.mpr ⟨l, mode, hlocate'⟩)

/-- Octets can be read only once they have all been written. -/
theorem InPhase.written_of_readFile (husable : Usable path files made)
    (h : InPhase path files made early phase s) {octets : Bytes}
    (hread : s.files.readFile (toString path) = .ok octets) (hne : octets ≠ []) :
    ∃ maker l, phase = .written maker l octets := by
  have hholds := h.holds
  cases phase with
  | untouched =>
      have hfiles : s.files = files := hholds
      rw [hfiles] at hread
      exact absurd hread (husable.readFile_ne octets)
  | ready =>
      have hfiles : s.files = made := hholds
      rw [hfiles] at hread
      exact absurd hread (husable.readFile_made_ne octets)
  | empty maker l secret =>
      obtain ⟨-, mode, hcreated⟩ := hholds
      rw [hcreated.readFile] at hread
      exact absurd (Except.ok.inj hread).symm hne
  | written maker l secret =>
      obtain ⟨-, mode, hcreated⟩ := hholds
      rw [hcreated.readFile] at hread
      exact ⟨maker, l, by rw [Except.ok.inj hread]⟩

theorem InPhase.readFile_of_written {maker : Nat} {l : Location} {secret : Bytes}
    (h : InPhase path files made early (.written maker l secret) s) :
    secret.length = Key.size ∧ s.files.readFile (toString path) = .ok secret := by
  obtain ⟨hsecret, mode, hcreated⟩ := h.holds
  exact ⟨hsecret, hcreated.readFile⟩

theorem move?_turn {p : Process} (hp : s.members[i]? = some p) :
    (s.turn path i).move? i = some (p.act path s.files).1.move := by
  have hlt := (List.getElem?_eq_some_iff.mp hp).1
  simp only [turn, hp, move?, List.getElem?_set_self hlt, Option.map_some]

/-- A process that comes too late for an exclusive creation fails. -/
theorem InPhase.turn_create (husable : Usable path files made)
    (h : InPhase path files made early phase s) (hmade : phase.creators ≠ []) {secret : Bytes}
    (hmove : s.move? i = some (.next (.create secret))) :
    (s.turn path i).move? i =
      some (KeyFile.Move.unusable path (errorAt path .alreadyExists)) := by
  obtain ⟨p, hp, hnext⟩ := Option.map_eq_some_iff.mp hmove
  obtain ⟨l, mode, content, hcreated, -⟩ := h.holds.created hmade
  have hact : (p.act path s.files).1.move =
      KeyFile.Move.unusable path (errorAt path .alreadyExists) := by
    rw [Process.act, hnext]
    simp only [KeyFile.advance, Phase.createFile_eq husable.nul, hcreated.createFile]
  rw [move?_turn hp, hact]

/-- What a number of turns has come to: one maker at most, a file that is not replaced, a failure
for whoever comes too late to create it, and one key for all who return, but for those who read the
file before anything was in it. -/
structure Agreement (path : Path) (s : Processes) (turns : List Nat) : Prop where
  one : (creators path s turns).length ≤ 1
  kept : ∀ octets more, (s.run path turns).files.readFile (toString path) = .ok octets →
    octets ≠ [] → (s.run path (turns ++ more)).files.readFile (toString path) = .ok octets
  late : ∀ i secret, creators path s turns ≠ [] →
    (s.run path turns).move? i = some (.next (.create secret)) →
      ((s.run path turns).turn path i).move? i =
        some (.ended (.error (.failure (.keyStore (toString path) (errorAt path .alreadyExists)))))
  failed : ∀ i a, (s.run path turns).move? i = some (.ended (.error a)) →
    ∃ code, a = .failure (.keyStore (toString path) (errorAt path code))
  returned : ∀ i octets, (s.run path turns).move? i = some (.ended (.ok octets)) →
    octets.length = Key.size ∧ (s.run path turns).files.readFile (toString path) = .ok octets ∨
      octets = [] ∧ HasReadEmpty path s turns i

/-- However the turns are ordered, the processes agree. -/
theorem run_agreement (path : Path) (ambients : List Ambient) (files made : FileTree)
    (husable : Usable path files made) (turns : List Nat) :
    Agreement path (start ambients files) turns := by
  have hstart : InPhase path files made (fun _ => False) .untouched (start ambients files) :=
    start_inPhase ambients
  obtain ⟨phase, hrun, hcreators, -⟩ := run_inPhase husable turns hstart
  have hcreators' : creators path (start ambients files) turns = phase.creators := hcreators.symm
  refine ⟨?_, ?_, ?_, ?_, ?_⟩
  · rw [hcreators']
    exact phase.length_creators_le
  · intro octets more hread hne
    obtain ⟨maker, l, hphase⟩ := hrun.written_of_readFile husable hread hne
    obtain ⟨phase', hmore, -, hkept⟩ := run_inPhase husable more hrun
    obtain rfl := hkept maker l octets hphase
    rw [run, List.foldl_append]
    exact hmore.readFile_of_written.2
  · intro i secret hmade hmove
    rw [hcreators'] at hmade
    exact hrun.turn_create husable hmade hmove
  · intro i a hmove
    obtain ⟨p, hp, hended⟩ := Option.map_eq_some_iff.mp hmove
    have hallows := hrun.allows i p hp
    rw [hended] at hallows
    exact hallows
  · intro i octets hmove
    obtain ⟨p, hp, hended⟩ := Option.map_eq_some_iff.mp hmove
    have hallows := hrun.allows i p hp
    rw [hended] at hallows
    rcases hallows with ⟨maker, l, rfl⟩ | ⟨hnil, hearly | hread⟩
    · exact .inl hrun.readFile_of_written
    · exact hearly.elim
    · exact .inr ⟨hnil, hread⟩

/-- The path of a file in the working directory. -/
def key : Path := .ofString "key"

/-- Two processes in a working directory without files. -/
def two : Processes :=
  start [⟨.ofBytes [7], .ofBytes [], []⟩, ⟨.ofBytes [8], .ofBytes [], []⟩] (.empty ["home"])

theorem usable_key : Usable key (.empty ["home"]) (.empty ["home"]) where
  nul := by decide
  parent := ensureDirectory_of_isDirectory rfl
  absent := rfl

theorem run_agreement_two : Usable key (.empty ["home"]) (.empty ["home"]) ∧
    Agreement key two [0, 0, 0, 0, 1, 1, 1, 0, 0, 0, 0] :=
  ⟨usable_key, run_agreement key _ _ _ usable_key _⟩

/-! ## A reader between creation and writing -/

theorem turn_parents {ambient : Ambient} (hnul : path.hasNul = false)
    (hp : s.members[i]? = some ⟨ambient, .next .parents⟩)
    (hdir : s.files.isDirectory (toString path.parent) = .ok true) :
    s.turn path i = ⟨s.members.set i ⟨ambient, .next .check⟩, s.files⟩ := by
  have hparent := path.parent_reaches.hasNul hnul
  have hact : KeyFile.makeParents path {} ⟨ambient, s.files⟩ =
      (.next .check, ⟨ambient, s.files⟩) := by
    rw [KeyFile.makeParents, if_neg (by simp [hparent]), ensureDirectory_of_isDirectory hdir]
  simp only [turn, hp, Process.act, KeyFile.advance, hact]

/-- The second process has its turns after the first has made the file and before it writes. The two
then return different octets. -/
theorem early_reader_disagrees :
    Usable key two.files two.files ∧
      (two.run key [0, 0, 0, 0, 1, 1, 1, 0, 0, 0, 0]).move? 0 =
        some (.ended (.ok (7 :: List.replicate 31 0))) ∧
      ¬ ∀ i octets,
        (two.run key [0, 0, 0, 0, 1, 1, 1, 0, 0, 0, 0]).move? i = some (.ended (.ok octets)) →
          octets.length = Key.size ∧
            (two.run key [0, 0, 0, 0, 1, 1, 1, 0, 0, 0, 0]).files.readFile (toString key) =
              .ok octets := by
  refine ⟨usable_key, ?_⟩
  have hrun : two.run key [0, 0, 0, 0, 1, 1, 1, 0, 0, 0, 0] =
      run key ((run key (two.turn key 0) [0, 0, 0]).turn key 1) [1, 1, 0, 0, 0, 0] := rfl
  rw [hrun, turn_parents (i := 0) usable_key.nul rfl rfl,
    turn_parents (i := 1) usable_key.nul rfl rfl]
  refine ⟨rfl, ?_⟩
  intro hall
  obtain ⟨hlength, -⟩ := hall 1 [] rfl
  cases hlength

end Processes

end Strongbox
