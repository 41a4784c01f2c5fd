import Strongbox.Callers
import Strongbox.Proofs.Callers.Fetch
import Strongbox.Proofs.Files.Sight
import Strongbox.Proofs.KeyStore

/-! # One key for all callers of the stores of a file

Stores whose paths resolve to one location share a lock, and whoever has it is the only one at work
on the file. At most one caller makes a key and keeps it, and whoever gets a key gets that one. -/

namespace Strongbox

open FileTree

/-! ## Callers and stores -/

/-- A store that was made while its path resolved to the location, with nothing on the way out of
sight. -/
def KeyStore.MadeFor (l : Location) (s : KeyStore) : Prop :=
  ∃ w, lead (make s.path s.fatal) w = (.ok s, w) ∧ w.files.Resolves (toString s.path) l ∧
    w.files.InSight s.path

/-- Whatever the spelling of its path, the store goes by the lock of the location. -/
theorem KeyStore.MadeFor.lock_eq {l : Location} {s : KeyStore} (h : s.MadeFor l) :
    s.lock = l ∧ s.key = none := by
  obtain ⟨w, hmade, hresolves, hsight⟩ := h
  obtain ⟨hcanonical, hkey⟩ := canonical_of_lead_make hmade
  exact ⟨hresolves.canonical_eq hsight hcanonical, hkey⟩

/-- The key of a store, if it has one, is the one that has been settled on and is in its file. -/
def KeyStore.Knows (known : Option Bytes) (t : FileTree) (s : KeyStore) : Prop :=
  ∀ key, s.key = some key → known = some key ∧ t.readFile (toString s.path) = .ok key

theorem KeyStore.Knows.mono {known known' : Option Bytes} {t t' : FileTree} {s : KeyStore}
    (h : s.Knows known t)
    (hkept : ∀ key, known = some key → Extends t t' ∧ known' = known) : s.Knows known' t' := by
  intro key hkey
  obtain ⟨hknown, hread⟩ := h key hkey
  obtain ⟨hext, rfl⟩ := hkept key hknown
  obtain ⟨l, mode, hlocate⟩ := readFile_eq_ok_iff.mp hread
  exact ⟨hknown, readFile_eq_ok_iff.mpr ⟨l, mode, locate_found_extend hlocate hext⟩⟩

namespace CallerStage

/-- What holds at a store while a caller of it has the lock. -/
def Holds (files : FileTree) (l : Location) (known : Option Bytes) (t : FileTree) (s : KeyStore) :
    CallerStage → Prop
  | .recheck => t.contentAt l = known
  | .fetch stage => s.key = none ∧ stage.Meets files s.path l known t
  | .keep (.ok key) => s.key = none ∧ t.contentAt l = known ∧ known = some key ∧
      t.readFile (toString s.path) = .ok key
  | .keep (.error _) => s.key = none ∧ t.contentAt l = known
  | .release (.ok key) => s.key = some key ∧ t.contentAt l = known
  | .release (.error _) => s.key = none ∧ t.contentAt l = known
  | .peek | .acquire | .ended _ => False

/-- What holds at a store while a caller of it does not have the lock. -/
def Rests (s : KeyStore) : CallerStage → Prop
  | .peek | .acquire | .ended (.error _) => True
  | .ended (.ok key) => s.key = some key
  | .recheck | .fetch _ | .keep _ | .release _ => False

/-- The key that has been settled on after the turn of a caller. -/
def settles (known : Option Bytes) : CallerStage → Option Bytes
  | .fetch stage => stage.settles known
  | _ => known

/-- Who has the lock after the turn of caller `i`. -/
def passes (holder : Option Nat) (i : Nat) : CallerStage → Option Nat
  | .acquire => holder.or (some i)
  | .release _ => none
  | _ => holder

theorem Rests.of_key {stage : CallerStage} {s s' : KeyStore} (h : stage.Rests s)
    (hkey : s'.key = s.key ∨ s.key = none) : stage.Rests s' := by
  cases stage with
  | ended result =>
      cases result with
      | error a => trivial
      | ok key =>
          have hsome : s.key = some key := h
          rcases hkey with hkey | hkey
          · exact hkey.trans hsome
          · rw [hsome] at hkey
            cases hkey
  | _ => exact h

/-- Only whoever has the lock can give it away, and not to anybody else. -/
theorem passes_ne {stage : CallerStage} {i j : Nat} (hj : j ≠ i) :
    stage.passes (some i) i ≠ some j := by
  cases stage <;> simp [passes, hj.symm]

end CallerStage

namespace Crowd

/-- What the turn of caller `i` must lead to. -/
structure Acts (files : FileTree) (l : Location) (known : Option Bytes) (holder : Option Nat)
    (i : Nat) (stage : CallerStage) (s : KeyStore) (w : World)
    (led : CallerStage × KeyStore × List Location × World) : Prop where
  grown : Grown files led.2.2.2.files
  kept : ∀ key, known = some key →
    Extends w.files led.2.2.2.files ∧ stage.settles known = known
  held : led.2.2.1 = (stage.passes holder i).toList.map fun _ => l
  idle : stage.passes holder i = none → led.2.2.2.files.contentAt l = stage.settles known
  path : led.2.1.path = s.path
  lock : led.2.1.lock = s.lock
  key : led.2.1.key = s.key ∨ s.key = none
  knows : led.2.1.Knows (stage.settles known) led.2.2.2.files
  self : if stage.passes holder i = some i then
      led.1.Holds files l (stage.settles known) led.2.2.2.files led.2.1
    else led.1.Rests led.2.1
  others : holder ≠ some i →
    stage.settles known = known ∧ led.2.1 = s ∧ led.2.2.2 = w ∧
      ∀ j, j ≠ i → (stage.passes holder i = some j ↔ holder = some j)

section

variable {files : FileTree} {l : Location} {known : Option Bytes} {holder : Option Nat}
  {i : Nat} {stage next : CallerStage} {s s' : KeyStore} {held : List Location} {w w' : World}

/-- A turn without the lock changes nothing but the stage of the caller. -/
theorem acts_of_rests (hother : holder ≠ some i) (hsettles : stage.settles known = known)
    (hpasses : stage.passes holder i = holder) (hgrown : Grown files w.files)
    (hheld : held = holder.toList.map fun _ => l)
    (hidle : holder = none → w.files.contentAt l = known) (hknows : s.Knows known w.files)
    (hnext : next.Rests s) :
    Acts files l known holder i stage s w (next, s, held, w) where
  grown := hgrown
  kept _ _ := ⟨.refl w.files, hsettles⟩
  held := by rw [hpasses, hheld]
  idle h := by
    rw [hsettles]
    exact hidle (hpasses ▸ h)
  path := rfl
  lock := rfl
  key := .inl rfl
  knows := by rwa [hsettles]
  self := by rwa [hpasses, if_neg hother]
  others _ := ⟨hsettles, rfl, rfl, fun j _ => by rw [hpasses]⟩

/-- A turn of whoever has the lock and does not give it back. -/
theorem acts_of_holds (hpasses : stage.passes (some i) i = some i) (hgrown : Grown files w'.files)
    (hkept : ∀ key, known = some key → Extends w.files w'.files ∧ stage.settles known = known)
    (hpath : s'.path = s.path) (hlock : s'.lock = s.lock) (hkey : s'.key = s.key ∨ s.key = none)
    (hknows : s'.Knows (stage.settles known) w'.files)
    (hnext : next.Holds files l (stage.settles known) w'.files s') :
    Acts files l known (some i) i stage s w (next, s', [l], w') where
  grown := hgrown
  kept := hkept
  held := by rw [hpasses]; rfl
  idle h := by
    rw [hpasses] at h
    cases h
  path := hpath
  lock := hlock
  key := hkey
  knows := hknows
  self := by rwa [hpasses, if_pos rfl]
  others h := absurd rfl h

theorem acquire_acts (hlock : s.lock = l) (hother : holder ≠ some i)
    (hgrown : Grown files w.files) (hheld : held = holder.toList.map fun _ => l)
    (hidle : holder = none → w.files.contentAt l = known) (hknows : s.Knows known w.files)
    {c : Caller} (hc : c.stage = .acquire) :
    Acts files l known holder i .acquire s w (act c s held w) := by
  rw [act, hc]
  dsimp only
  cases holder with
  | none =>
      obtain rfl : held = [] := hheld
      exact {
        grown := hgrown
        kept := fun _ _ => ⟨.refl w.files, rfl⟩
        held := by rw [← hlock]; rfl
        idle := by nofun
        path := rfl
        lock := rfl
        key := .inl rfl
        knows := hknows
        self := by
          have hpasses : CallerStage.acquire.passes none i = some i := rfl
          rw [if_pos hpasses]
          exact hidle rfl
        others := fun _ => ⟨rfl, rfl, rfl, fun j hj => by simp [CallerStage.passes, hj.symm]⟩ }
  | some j =>
      have htaken : (held.any fun l => l = s.lock) = true := by simp [hheld, hlock]
      rw [if_pos htaken]
      exact acts_of_rests hother rfl rfl hgrown hheld hidle hknows trivial

theorem escalate_error (s : KeyStore) (a : Abort) (w : World) :
    ∃ a' w', escalate s (.error a) w = (.error a', w') ∧ w'.files = w.files := by
  cases a with
  | failure f =>
      by_cases hfatal : s.fatal = true
      · exact ⟨.exit f, w.record .error s!"ERROR: secret file: {f.message}",
          by rw [escalate, if_pos hfatal], rfl⟩
      · exact ⟨.failure f, w, by rw [escalate, if_neg hfatal], rfl⟩
  | _ => exact ⟨_, w, rfl, rfl⟩

/-- A turn of a caller that reads or makes the file. -/
theorem fetch_acts {c : Caller} {stage : KeyFile.Stage} (hc : c.stage = .fetch stage)
    (hfaults : c.faults.Contained) (hresolves : files.Resolves (toString s.path) l)
    (hgrown : Grown files w.files) (hkey : s.key = none)
    (hmeets : stage.Meets files s.path l known w.files) :
    Acts files l known (some i) i (.fetch stage) s w (act c s [l] w) := by
  have hadvances := KeyFile.advance_advances hfaults hresolves hgrown hmeets
  have hknows : ∀ known t, s.Knows known t := by
    intro known t key hsome
    rw [hkey] at hsome
    cases hsome
  rw [act, hc]
  dsimp only
  cases hadvance : KeyFile.advance s.path c.faults stage w with
  | mk move w' =>
      rw [hadvance] at hadvances
      cases move with
      | next stage' =>
          exact acts_of_holds rfl hadvances.grown hadvances.kept rfl rfl (.inl rfl) (hknows _ _)
            ⟨hkey, hadvances.meets⟩
      | ended result =>
          cases result with
          | ok key =>
              obtain ⟨hknown, hcontent, hread⟩ := hadvances.meets
              exact acts_of_holds rfl hadvances.grown hadvances.kept rfl rfl (.inl rfl)
                (hknows _ _) ⟨hkey, hcontent, hknown, hread⟩
          | error a =>
              obtain ⟨a', w'', hescalate, hfiles⟩ := escalate_error s a w'
              dsimp only
              rw [hescalate]
              refine acts_of_holds rfl ?_ ?_ rfl rfl (.inl rfl) (hknows _ _) ⟨hkey, ?_⟩
              · rw [hfiles]
                exact hadvances.grown
              · rw [hfiles]
                exact hadvances.kept
              · rw [hfiles]
                exact hadvances.meets

theorem keep_acts {c : Caller} {result : Except Abort Bytes} (hc : c.stage = .keep result)
    (hgrown : Grown files w.files) (hknows : s.Knows known w.files)
    (hholds : (CallerStage.keep result).Holds files l known w.files s) :
    Acts files l known (some i) i (.keep result) s w (act c s [l] w) := by
  have hkept : ∀ key, known = some key → Extends w.files w.files ∧ known = known :=
    fun _ _ => ⟨.refl w.files, rfl⟩
  rw [act, hc]
  cases result with
  | ok key =>
      obtain ⟨hkey, hcontent, hknown, hread⟩ := hholds
      refine acts_of_holds rfl hgrown hkept rfl rfl (.inr hkey) ?_ ⟨rfl, hcontent⟩
      intro key' hkey'
      obtain rfl := Option.some.inj hkey'
      exact ⟨hknown, hread⟩
  | error a => exact acts_of_holds rfl hgrown hkept rfl rfl (.inl rfl) hknows hholds

theorem release_acts {c : Caller} {result : Except Abort Bytes} (hc : c.stage = .release result)
    (hlock : s.lock = l) (hgrown : Grown files w.files) (hknows : s.Knows known w.files)
    (hholds : (CallerStage.release result).Holds files l known w.files s) :
    Acts files l known (some i) i (.release result) s w (act c s [l] w) := by
  rw [act, hc]
  exact {
    grown := hgrown
    kept := fun _ _ => ⟨.refl w.files, rfl⟩
    held := by simp [CallerStage.passes, hlock]
    idle := fun _ => by
      cases result with
      | ok key => exact hholds.2
      | error a => exact hholds.2
    path := rfl
    lock := rfl
    key := .inl rfl
    knows := hknows
    self := by
      cases result with
      | ok key => exact hholds.1
      | error a => trivial
    others := fun h => absurd rfl h }

theorem act_acts {c : Caller} (hfaults : c.faults.Contained)
    (hresolves : files.Resolves (toString s.path) l) (hlock : s.lock = l)
    (hgrown : Grown files w.files) (hheld : held = holder.toList.map fun _ => l)
    (hidle : holder = none → w.files.contentAt l = known) (hknows : s.Knows known w.files)
    (hself : if holder = some i then c.stage.Holds files l known w.files s
      else c.stage.Rests s) :
    Acts files l known holder i c.stage s w (act c s held w) := by
  by_cases hholder : holder = some i
  · subst hholder
    obtain rfl : held = [l] := hheld
    rw [if_pos rfl] at hself
    cases hc : c.stage with
    | recheck =>
        rw [hc] at hself
        have hkept : ∀ key, known = some key → Extends w.files w.files ∧ known = known :=
          fun _ _ => ⟨.refl w.files, rfl⟩
        rw [act, hc]
        cases hkey : s.key with
        | none => exact acts_of_holds rfl hgrown hkept rfl rfl (.inl rfl) hknows ⟨hkey, hself⟩
        | some key => exact acts_of_holds rfl hgrown hkept rfl rfl (.inl rfl) hknows ⟨hkey, hself⟩
    | fetch stage =>
        rw [hc] at hself
        exact fetch_acts hc hfaults hresolves hgrown hself.1 hself.2
    | keep result =>
        rw [hc] at hself
        exact keep_acts hc hgrown hknows hself
    | release result =>
        rw [hc] at hself
        exact release_acts hc hlock hgrown hknows hself
    | _ =>
        rw [hc] at hself
        exact hself.elim
  · rw [if_neg hholder] at hself
    cases hc : c.stage with
    | peek =>
        rw [act, hc]
        cases hkey : s.key with
        | none => exact acts_of_rests hholder rfl rfl hgrown hheld hidle hknows trivial
        | some key => exact acts_of_rests hholder rfl rfl hgrown hheld hidle hknows hkey
    | acquire => exact acquire_acts hlock hholder hgrown hheld hidle hknows hc
    | ended result =>
        rw [hc] at hself
        rw [act, hc]
        exact acts_of_rests hholder rfl rfl hgrown hheld hidle hknows hself
    | _ =>
        rw [hc] at hself
        exact hself.elim

end

/-! ## The run -/

/-- The files, the stores, the lock and all callers are as they must be. -/
structure InPhase (files : FileTree) (l : Location) (known : Option Bytes)
    (holder : Option Nat) (crowd : Crowd) : Prop where
  grown : Grown files crowd.world.files
  held : crowd.held = holder.toList.map fun _ => l
  idle : holder = none → crowd.world.files.contentAt l = known
  faults : ∀ c ∈ crowd.callers, c.faults.Contained
  stores : ∀ s ∈ crowd.stores, s.lock = l ∧ files.Resolves (toString s.path) l ∧
    s.Knows known crowd.world.files
  callers : ∀ i c s, crowd.callers[i]? = some c → crowd.stores[c.store]? = some s →
    if holder = some i then c.stage.Holds files l known crowd.world.files s else c.stage.Rests s

/-- A caller and its store. -/
def At (crowd : Crowd) (i : Nat) (c : Caller) (s : KeyStore) : Prop :=
  crowd.callers[i]? = some c ∧ crowd.stores[c.store]? = some s

variable {files : FileTree} {l : Location} {known : Option Bytes} {holder : Option Nat}
  {crowd : Crowd} {i : Nat} {c : Caller} {s : KeyStore}

theorem turn_eq (h : crowd.At i c s) :
    crowd.turn i =
      { callers := crowd.callers.set i { c with stage := (act c s crowd.held crowd.world).1 }
        stores := crowd.stores.set c.store (act c s crowd.held crowd.world).2.1
        held := (act c s crowd.held crowd.world).2.2.1
        world := (act c s crowd.held crowd.world).2.2.2 } := by
  simp only [turn, h.1, h.2]

theorem turn_eq_self (h : ∀ c s, ¬ crowd.At i c s) : crowd.turn i = crowd := by
  unfold turn
  cases hc : crowd.callers[i]? with
  | none => rfl
  | some c =>
      cases hs : crowd.stores[c.store]? with
      | none => simp only [hs]
      | some s => exact absurd ⟨hc, hs⟩ (h c s)

theorem At.turn_self (h : crowd.At i c s) :
    (crowd.turn i).At i { c with stage := (act c s crowd.held crowd.world).1 }
      (act c s crowd.held crowd.world).2.1 := by
  have hi := (List.getElem?_eq_some_iff.mp h.1).1
  have hj := (List.getElem?_eq_some_iff.mp h.2).1
  rw [turn_eq h]
  exact ⟨List.getElem?_set_self hi, List.getElem?_set_self hj⟩

/-- The turn of another caller may change the store, but it leaves the caller there. -/
theorem At.turn_of_ne {j : Nat} {d : Caller} {r : KeyStore} (hd : crowd.At j d r) (hne : j ≠ i)
    (h : crowd.At i c s) : ∃ r', (crowd.turn i).At j d r' := by
  have hcaller : ∀ a, (crowd.callers.set i a)[j]? = some d :=
    fun a => (List.getElem?_set_ne hne.symm).trans hd.1
  rw [turn_eq h]
  by_cases hstore : c.store = d.store
  · have hlt := (List.getElem?_eq_some_iff.mp h.2).1
    refine ⟨(act c s crowd.held crowd.world).2.1, hcaller _, ?_⟩
    rw [← hstore]
    exact List.getElem?_set_self hlt
  · exact ⟨r, hcaller _, (List.getElem?_set_ne hstore).trans hd.2⟩

/-- Another caller's store may be that of the caller whose turn it is. -/
theorem At.turn_other {j : Nat} {d : Caller} {r' : KeyStore} (h : crowd.At i c s) (hne : j ≠ i)
    (hd : (crowd.turn i).At j d r') :
    ∃ r, crowd.At j d r ∧
      (r' = r ∨ r = s ∧ r' = (act c s crowd.held crowd.world).2.1) := by
  rw [turn_eq h] at hd
  obtain ⟨hcaller, hstore⟩ := hd
  rw [List.getElem?_set_ne hne.symm] at hcaller
  rw [List.getElem?_set] at hstore
  split at hstore
  · rename_i heq
    have hj := (List.getElem?_eq_some_iff.mp h.2).1
    rw [if_pos hj] at hstore
    exact ⟨s, ⟨hcaller, heq ▸ h.2⟩, .inr ⟨rfl, (Option.some.inj hstore).symm⟩⟩
  · exact ⟨r', ⟨hcaller, hstore⟩, .inl rfl⟩

theorem InPhase.acts (h : InPhase files l known holder crowd) (hat : crowd.At i c s) :
    Acts files l known holder i c.stage s crowd.world
      (act c s crowd.held crowd.world) := by
  obtain ⟨hlock, hresolves, hknows⟩ := h.stores s (List.mem_of_getElem? hat.2)
  exact act_acts (h.faults c (List.mem_of_getElem? hat.1)) hresolves hlock h.grown h.held h.idle
    hknows (h.callers i c s hat.1 hat.2)

theorem turn_inPhase (h : InPhase files l known holder crowd) (hat : crowd.At i c s) :
    InPhase files l (c.stage.settles known) (c.stage.passes holder i) (crowd.turn i) := by
  have hacts := h.acts hat
  have hturn := turn_eq hat
  have hworld : (crowd.turn i).world = (act c s crowd.held crowd.world).2.2.2 := by rw [hturn]
  constructor
  · rw [hworld]
    exact hacts.grown
  · rw [hturn]
    exact hacts.held
  · rw [hworld]
    exact hacts.idle
  · intro d hd
    rw [hturn] at hd
    rcases List.mem_or_eq_of_mem_set hd with hd | rfl
    · exact h.faults d hd
    · exact h.faults c (List.mem_of_getElem? hat.1)
  · intro r hr
    rw [hworld]
    rw [hturn] at hr
    rcases List.mem_or_eq_of_mem_set hr with hr | rfl
    · obtain ⟨hlock, hresolves, hknows⟩ := h.stores r hr
      exact ⟨hlock, hresolves, hknows.mono hacts.kept⟩
    · obtain ⟨hlock, hresolves, -⟩ := h.stores s (List.mem_of_getElem? hat.2)
      refine ⟨hacts.lock.trans hlock, ?_, hacts.knows⟩
      rw [hacts.path]
      exact hresolves
  · intro j d r' hd hr
    rw [hworld]
    by_cases hj : j = i
    · subst hj
      obtain ⟨hd', hr'⟩ := hat.turn_self
      obtain rfl := Option.some.inj (hd.symm.trans hd')
      obtain rfl := Option.some.inj (hr.symm.trans hr')
      exact hacts.self
    · obtain ⟨r, hatj, hr'⟩ := hat.turn_other hj ⟨hd, hr⟩
      have hold := h.callers j d r hatj.1 hatj.2
      have hkey : r'.key = r.key ∨ r.key = none := by
        rcases hr' with rfl | ⟨rfl, rfl⟩
        · exact .inl rfl
        · exact hacts.key
      by_cases hholder : holder = some i
      · subst hholder
        rw [if_neg fun heq => hj (Option.some.inj heq).symm] at hold
        rw [if_neg (CallerStage.passes_ne hj)]
        exact hold.of_key hkey
      · obtain ⟨hsettles, hstore, hsame, hothers⟩ := hacts.others hholder
        have hr'' : r' = r := by
          rcases hr' with rfl | ⟨rfl, rfl⟩
          · rfl
          · exact hstore
        rw [hsame, hsettles, hr'']
        simpa only [hothers j hj] using hold

theorem exists_inPhase_turn (h : InPhase files l known holder crowd) (i : Nat) :
    ∃ known' holder', InPhase files l known' holder' (crowd.turn i) := by
  by_cases hat : ∃ c s, crowd.At i c s
  · obtain ⟨c, s, hat⟩ := hat
    exact ⟨_, _, turn_inPhase h hat⟩
  · rw [turn_eq_self fun c s hcs => hat ⟨c, s, hcs⟩]
    exact ⟨known, holder, h⟩

theorem exists_inPhase_run (h : InPhase files l known holder crowd) (turns : List Nat) :
    ∃ known' holder', InPhase files l known' holder' (crowd.run turns) := by
  induction turns generalizing crowd known holder with
  | nil => exact ⟨known, holder, h⟩
  | cons i turns ih =>
      obtain ⟨known', holder', hturn⟩ := exists_inPhase_turn h i
      exact ih hturn

/-! ## Turns that come to something -/

def stage? (crowd : Crowd) (i : Nat) : Option CallerStage :=
  crowd.callers[i]?.map Caller.stage

/-- The callers, one after the other, whose turns take them from one stage to another as `p` has
it; each as it is before its turn. -/
def movers (p : CallerStage → CallerStage → Bool) : Crowd → List Nat → List Caller
  | _, [] => []
  | crowd, i :: turns =>
    (crowd.callers[i]?.toList.filter fun c => ((crowd.turn i).stage? i).any (p c.stage)) ++
      movers p (crowd.turn i) turns

/-- A run on the file ends with a key. -/
def getsKey : CallerStage → CallerStage → Bool
  | .fetch _, .keep (.ok _) => true
  | _, _ => false

/-- The key is one that the run has made and put into a new file. -/
def makesKey : CallerStage → CallerStage → Bool
  | .fetch (.harden _), .keep (.ok _) => true
  | _, _ => false

theorem At.stage? (h : crowd.At i c s) : crowd.stage? i = some c.stage := by
  rw [Crowd.stage?, h.1, Option.map_some]

theorem At.movers_cons (h : crowd.At i c s) (p : CallerStage → CallerStage → Bool)
    (turns : List Nat) :
    movers p crowd (i :: turns) =
      (if p c.stage (act c s crowd.held crowd.world).1 then [c] else []) ++
        movers p (crowd.turn i) turns := by
  rw [movers, h.turn_self.stage?, h.1]
  simp only [Option.toList_some, List.filter_cons, List.filter_nil, Option.any_some]

/-- Whoever is at no store goes nowhere. -/
theorem movers_cons_of_self {p : CallerStage → CallerStage → Bool} (hp : ∀ stage, ¬ p stage stage)
    (h : crowd.turn i = crowd) (turns : List Nat) :
    movers p crowd (i :: turns) = movers p crowd turns := by
  rw [movers, h, Crowd.stage?]
  cases crowd.callers[i]? with
  | none => rfl
  | some c => simp [hp c.stage]

theorem getsKey_self (stage : CallerStage) : ¬ getsKey stage stage := by
  cases stage <;> simp [getsKey]

theorem makesKey_self (stage : CallerStage) : ¬ makesKey stage stage := by
  cases stage <;> simp [makesKey]

theorem exists_of_getsKey {stage next : CallerStage} (h : getsKey stage next = true) :
    ∃ s key, stage = .fetch s ∧ next = .keep (.ok key) := by
  unfold getsKey at h
  split at h
  · exact ⟨_, _, rfl, rfl⟩
  · cases h

theorem exists_of_makesKey {stage next : CallerStage} (h : makesKey stage next = true) :
    ∃ secret, stage = .fetch (.harden secret) := by
  unfold makesKey at h
  split at h
  · exact ⟨_, rfl⟩
  · cases h

/-! ## One key is made -/

theorem InPhase.holder_of_fetch (h : InPhase files l known holder crowd)
    (hat : crowd.At i c s) {stage : KeyFile.Stage} (hc : c.stage = .fetch stage) :
    holder = some i ∧ s.key = none ∧ stage.Meets files s.path l known crowd.world.files := by
  have hself := h.callers i c s hat.1 hat.2
  rw [hc] at hself
  split at hself
  · rename_i hholder
    exact ⟨hholder, hself⟩
  · exact hself.elim

/-- A key is made only when there is none yet, and then it is settled on. -/
theorem length_settles (h : InPhase files l known holder crowd) (hat : crowd.At i c s) :
    (if makesKey c.stage (act c s crowd.held crowd.world).1 then [c] else []).length +
      known.toList.length ≤ (c.stage.settles known).toList.length := by
  split
  · rename_i hmakes
    obtain ⟨secret, hc⟩ := exists_of_makesKey hmakes
    obtain ⟨-, -, hknown, -⟩ := h.holder_of_fetch hat hc
    rw [hc, hknown]
    exact Nat.le_refl 1
  · cases hknown : known with
    | none => exact Nat.zero_le _
    | some key =>
        have hsettles := ((h.acts hat).kept key hknown).2
        rw [hknown] at hsettles
        rw [hsettles]
        exact Nat.le_refl 1

theorem length_movers_makesKey (h : InPhase files l known holder crowd) (turns : List Nat) :
    (movers makesKey crowd turns).length + known.toList.length ≤ 1 := by
  induction turns generalizing crowd known holder with
  | nil => cases known <;> simp [movers]
  | cons i turns ih =>
      by_cases hat : ∃ c s, crowd.At i c s
      · obtain ⟨c, s, hat⟩ := hat
        have hrest := ih (turn_inPhase h hat)
        have hturn := length_settles h hat
        rw [hat.movers_cons, List.length_append]
        omega
      · have hself := turn_eq_self fun c s hcs => hat ⟨c, s, hcs⟩
        rw [movers_cons_of_self makesKey_self hself]
        exact ih h

/-! ## Each store gets its key once -/

/-- The store has a key, or one of its callers is about to put one there. -/
def Supplied (crowd : Crowd) (j : Nat) : Prop :=
  (∃ s key, crowd.stores[j]? = some s ∧ s.key = some key) ∨
    ∃ i c s key, crowd.At i c s ∧ c.store = j ∧ c.stage = .keep (.ok key)

theorem exists_key_of_act {key : Bytes} (held : List Location) (w : World)
    (h : s.key = some key ∨ c.stage = .keep (.ok key)) :
    ∃ key', (act c s held w).2.1.key = some key' := by
  have hkept : c.stage ≠ .keep (.ok key) → s.key = some key := h.resolve_right
  cases hc : c.stage with
  | keep result =>
      rw [act, hc]
      cases result with
      | ok key' => exact ⟨key', rfl⟩
      | error a => exact ⟨key, hkept (by simp [hc])⟩
  | fetch stage =>
      rw [act, hc]
      dsimp only
      split <;> exact ⟨key, hkept (by simp [hc])⟩
  | peek =>
      rw [act, hc]
      dsimp only
      split <;> exact ⟨key, hkept (by simp [hc])⟩
  | acquire =>
      rw [act, hc]
      dsimp only
      split <;> exact ⟨key, hkept (by simp [hc])⟩
  | recheck =>
      rw [act, hc]
      dsimp only
      split <;> exact ⟨key, hkept (by simp [hc])⟩
  | _ =>
      rw [act, hc]
      exact ⟨key, hkept (by simp [hc])⟩

theorem Supplied.turn {j : Nat} (h : crowd.Supplied j) (i : Nat) : (crowd.turn i).Supplied j := by
  by_cases hat : ∃ c s, crowd.At i c s
  · obtain ⟨c, s, hat⟩ := hat
    have hself := hat.turn_self
    rcases h with ⟨r, key, hr, hkey⟩ | ⟨k, d, r, key, hatk, rfl, hd⟩
    · by_cases hj : c.store = j
      · subst hj
        obtain rfl := Option.some.inj (hat.2.symm.trans hr)
        obtain ⟨key', hkey'⟩ := exists_key_of_act (c := c) crowd.held crowd.world (.inl hkey)
        exact .inl ⟨_, key', hself.2, hkey'⟩
      · refine .inl ⟨r, key, ?_, hkey⟩
        rw [turn_eq hat, List.getElem?_set_ne hj]
        exact hr
    · by_cases hk : k = i
      · subst hk
        obtain rfl := Option.some.inj (hat.1.symm.trans hatk.1)
        obtain ⟨key', hkey'⟩ := exists_key_of_act (s := s) crowd.held crowd.world (.inr hd)
        exact .inl ⟨_, key', hself.2, hkey'⟩
      · obtain ⟨r', hatk'⟩ := hatk.turn_of_ne hk hat
        exact .inr ⟨k, d, r', key, hatk', rfl, hd⟩
  · rwa [turn_eq_self fun c s hcs => hat ⟨c, s, hcs⟩]

theorem supplied_of_getsKey (hat : crowd.At i c s)
    (hgets : getsKey c.stage (act c s crowd.held crowd.world).1 = true) :
    (crowd.turn i).Supplied c.store := by
  obtain ⟨-, key, -, hnext⟩ := exists_of_getsKey hgets
  exact .inr ⟨i, _, _, key, hat.turn_self, rfl, hnext⟩

theorem not_supplied_of_getsKey (h : InPhase files l known holder crowd)
    (hat : crowd.At i c s)
    (hgets : getsKey c.stage (act c s crowd.held crowd.world).1 = true) :
    ¬ crowd.Supplied c.store := by
  obtain ⟨stage, -, hc, -⟩ := exists_of_getsKey hgets
  obtain ⟨hholder, hkey, -⟩ := h.holder_of_fetch hat hc
  rintro (⟨r, key, hr, hsome⟩ | ⟨j, d, r, key, hatj, hstore, hd⟩)
  · obtain rfl := Option.some.inj (hat.2.symm.trans hr)
    rw [hkey] at hsome
    cases hsome
  · have hother := h.callers j d r hatj.1 hatj.2
    rw [hd] at hother
    split at hother
    · rename_i hholder'
      obtain rfl := Option.some.inj (hholder.symm.trans hholder')
      obtain rfl := Option.some.inj (hat.1.symm.trans hatj.1)
      rw [hc] at hd
      cases hd
    · exact hother.elim

theorem nodup_movers_getsKey (h : InPhase files l known holder crowd) (turns : List Nat) :
    ((movers getsKey crowd turns).map Caller.store).Nodup ∧
      ∀ c ∈ movers getsKey crowd turns, ¬ crowd.Supplied c.store := by
  induction turns generalizing crowd known holder with
  | nil => simp [movers]
  | cons i turns ih =>
      by_cases hat : ∃ c s, crowd.At i c s
      · obtain ⟨c, s, hat⟩ := hat
        obtain ⟨hnodup, hunsupplied⟩ := ih (turn_inPhase h hat)
        have hlater : ∀ d ∈ movers getsKey (crowd.turn i) turns, ¬ crowd.Supplied d.store :=
          fun d hd hsupplied => hunsupplied d hd (hsupplied.turn i)
        rw [hat.movers_cons]
        split
        · rename_i hgets
          rw [List.singleton_append, List.map_cons, List.nodup_cons]
          refine ⟨⟨?_, hnodup⟩, ?_⟩
          · intro hmem
            obtain ⟨d, hd, hstore⟩ := List.mem_map.mp hmem
            refine hunsupplied d hd ?_
            rw [hstore]
            exact supplied_of_getsKey hat hgets
          · intro d hd
            rcases List.mem_cons.mp hd with rfl | hd
            · exact not_supplied_of_getsKey h hat hgets
            · exact hlater d hd
        · rw [List.nil_append]
          exact ⟨hnodup, hlater⟩
      · have hself := turn_eq_self fun c s hcs => hat ⟨c, s, hcs⟩
        rw [movers_cons_of_self getsKey_self hself]
        exact ih h

/-! ## Calls that fail -/

theorem At.turn_to {next : CallerStage} {s' : KeyStore} {held : List Location} {w : World}
    (h : crowd.At i c s) (hact : act c s crowd.held crowd.world = (next, s', held, w)) :
    (crowd.turn i).At i { c with stage := next } s' ∧ (crowd.turn i).held = held := by
  have hself := h.turn_self
  have hturn := turn_eq h
  rw [hact] at hself hturn
  exact ⟨hself, by rw [hturn]⟩

theorem stage?_turn_of_ne {j : Nat} (hne : j ≠ i) : (crowd.turn i).stage? j = crowd.stage? j := by
  by_cases hat : ∃ c s, crowd.At i c s
  · obtain ⟨c, s, hat⟩ := hat
    rw [turn_eq hat, stage?, stage?, List.getElem?_set_ne hne.symm]
  · rw [turn_eq_self fun c s hcs => hat ⟨c, s, hcs⟩]

theorem stage_of_act_ended {held : List Location} {w : World} {a : Abort}
    (h : (act c s held w).1 = .ended (.error a)) :
    c.stage = .release (.error a) ∨ c.stage = .ended (.error a) := by
  cases hc : c.stage with
  | release result =>
      rw [act, hc] at h
      obtain rfl := CallerStage.ended.inj h
      exact .inl rfl
  | ended result =>
      rw [act, hc] at h
      exact .inr h
  | _ =>
      simp only [act, hc] at h
      split at h <;> cases h

/-- A call that fails ends when it gives the lock back. -/
theorem exists_release {a : Abort} (turns : List Nat)
    (hstart : crowd.stage? i ≠ some (.ended (.error a)))
    (h : (crowd.run turns).stage? i = some (.ended (.error a))) :
    ∃ earlier later c s, turns = earlier ++ i :: later ∧ (crowd.run earlier).At i c s ∧
      c.stage = .release (.error a) := by
  induction turns generalizing crowd with
  | nil => exact absurd h hstart
  | cons j turns ih =>
      by_cases hnow : (crowd.turn j).stage? i = some (.ended (.error a))
      · by_cases hj : i = j
        · subst hj
          by_cases hat : ∃ c s, crowd.At i c s
          · obtain ⟨c, s, hat⟩ := hat
            rw [hat.turn_self.stage?] at hnow
            rcases stage_of_act_ended (Option.some.inj hnow) with hc | hc
            · exact ⟨[], turns, c, s, rfl, hat, hc⟩
            · exact absurd (hat.stage?.trans (congrArg some hc)) hstart
          · rw [turn_eq_self fun c s hcs => hat ⟨c, s, hcs⟩] at hnow
            exact absurd hnow hstart
        · rw [stage?_turn_of_ne hj] at hnow
          exact absurd hnow hstart
      · obtain ⟨earlier, later, c, s, rfl, hat, hc⟩ := ih hnow h
        exact ⟨j :: earlier, later, c, s, rfl, hat, hc⟩

theorem InPhase.turn_release (h : InPhase files l known holder crowd) (hat : crowd.At i c s)
    {a : Abort} (hc : c.stage = .release (.error a)) :
    s.key = none ∧ (crowd.turn i).At i { c with stage := .ended (.error a) } s ∧
      (crowd.turn i).held = [] := by
  have hheld := (h.acts hat).held
  have hself := h.callers i c s hat.1 hat.2
  rw [hc] at hheld hself
  have hact : act c s crowd.held crowd.world = (.ended (.error a), s, [], crowd.world) := by
    rw [act, hc] at hheld ⊢
    exact congrArg (fun held => (_, s, held, crowd.world)) hheld
  split at hself
  · exact ⟨hself.1, hat.turn_to hact⟩
  · exact hself.elim

/-- A store without a key has its next caller try, once the lock is free. -/
theorem stage?_run_peek (hat : crowd.At i c s) (hc : c.stage = .peek) (hkey : s.key = none)
    (hheld : crowd.held = []) : (crowd.run [i, i, i]).stage? i = some (.fetch .parents) := by
  have hpeek : act c s crowd.held crowd.world = (.acquire, s, crowd.held, crowd.world) := by
    simp [act, hc, hkey]
  obtain ⟨hat₁, hheld₁⟩ := hat.turn_to hpeek
  have hacquire : act { c with stage := .acquire } s (crowd.turn i).held (crowd.turn i).world =
      (.recheck, s, [s.lock], (crowd.turn i).world) := by
    simp [act, hheld₁, hheld]
  obtain ⟨hat₂, -⟩ := hat₁.turn_to hacquire
  have hrecheck : act { c with stage := .recheck } s ((crowd.turn i).turn i).held
      ((crowd.turn i).turn i).world =
        (.fetch .parents, s, ((crowd.turn i).turn i).held, ((crowd.turn i).turn i).world) := by
    simp [act, hkey]
  exact (hat₂.turn_to hrecheck).1.stage?

/-! ## Agreement -/

/-- Callers that have not begun, at stores that are as they were made and whose paths resolve to one
location. -/
structure Gathered (l : Location) (crowd : Crowd) : Prop where
  held : crowd.held = []
  callers : ∀ c ∈ crowd.callers, c.stage = .peek ∧ c.faults.Contained
  stores : ∀ s ∈ crowd.stores, s.MadeFor l ∧ crowd.world.files.Resolves (toString s.path) l

/-- A call that has failed gave the lock back in its last turn, and its store had no key then: the
next caller of the store to have its turns would read or make the file itself. -/
def GaveUp (crowd : Crowd) (turns : List Nat) (i : Nat) (a : Abort) : Prop :=
  ∃ earlier later c s, turns = earlier ++ i :: later ∧ (crowd.run earlier).At i c s ∧
    c.stage = .release (.error a) ∧ s.key = none ∧
    ((crowd.run earlier).turn i).At i { c with stage := .ended (.error a) } s ∧
    ((crowd.run earlier).turn i).held = [] ∧
    ∀ j d, ((crowd.run earlier).turn i).At j d s → d.stage = .peek →
      (((crowd.run earlier).turn i).run [j, j, j]).stage? j = some (.fetch .parents)

/-- What a number of turns has come to: one key at most has been made and kept, no store has had its
key fetched twice, and all who return have the key that is in the file. A caller whose fetch has
failed leaves its store without a key, and two more turns of its own end the call. -/
structure OneKey (l : Location) (crowd : Crowd) (turns : List Nat) : Prop where
  one : (movers makesKey crowd turns).length ≤ 1
  once : ((movers getsKey crowd turns).map Caller.store).Nodup
  returned : ∀ i c s key, (crowd.run turns).At i c s → c.stage = .ended (.ok key) →
    (crowd.run turns).world.files.contentAt l = some key ∧
      (crowd.run turns).world.files.readFile (toString s.path) = .ok key
  same : ∀ i j c d r s key key', (crowd.run turns).At i c r → (crowd.run turns).At j d s →
    c.stage = .ended (.ok key) → d.stage = .ended (.ok key') → key = key'
  unloaded : ∀ i c s a, (crowd.run turns).At i c s → c.stage = .keep (.error a) →
    s.key = none ∧ (crowd.run (turns ++ [i, i])).held = [] ∧
      (crowd.run (turns ++ [i, i])).At i { c with stage := .ended (.error a) } s
  failed : ∀ i a, (crowd.run turns).stage? i = some (.ended (.error a)) → GaveUp crowd turns i a

theorem Gathered.inPhase (h : Gathered l crowd) :
    InPhase crowd.world.files l (crowd.world.files.contentAt l) none crowd where
  grown := .refl _
  held := h.held
  idle _ := rfl
  faults c hc := (h.callers c hc).2
  stores s hs := by
    obtain ⟨hmade, hresolves⟩ := h.stores s hs
    obtain ⟨hlock, hkey⟩ := hmade.lock_eq
    refine ⟨hlock, hresolves, fun key hsome => ?_⟩
    rw [hkey] at hsome
    cases hsome
  callers i c s hc _ := by
    rw [if_neg (by nofun), (h.callers c (List.mem_of_getElem? hc)).1]
    trivial

theorem InPhase.contentAt_of_ended (h : InPhase files l known holder crowd)
    (hat : crowd.At i c s) {key : Bytes} (hc : c.stage = .ended (.ok key)) :
    crowd.world.files.contentAt l = some key ∧
      crowd.world.files.readFile (toString s.path) = .ok key := by
  obtain ⟨-, hresolves, hknows⟩ := h.stores s (List.mem_of_getElem? hat.2)
  have hself := h.callers i c s hat.1 hat.2
  rw [hc] at hself
  split at hself
  · exact hself.elim
  · obtain ⟨-, hread⟩ := hknows key hself
    exact ⟨hresolves.contentAt_of_readFile h.grown hread, hread⟩

theorem InPhase.turn_keep (h : InPhase files l known holder crowd) (hat : crowd.At i c s)
    {a : Abort} (hc : c.stage = .keep (.error a)) :
    s.key = none ∧ (crowd.turn i).At i { c with stage := .release (.error a) } s := by
  have hself := h.callers i c s hat.1 hat.2
  rw [hc] at hself
  have hact : act c s crowd.held crowd.world =
      (.release (.error a), s, crowd.held, crowd.world) := by
    rw [act, hc]
  split at hself
  · exact ⟨hself.1, (hat.turn_to hact).1⟩
  · exact hself.elim

/-- A working directory with a link in it that leads back to it. -/
def linked : World where
  ambient := ⟨.ofBytes [7], .ofBytes [], []⟩
  files := (FileTree.empty ["home"]).put ["near", "home"] (.link "../home")

/-- Four callers at stores of one file under three spellings. The first of them meets a full
disk. -/
def spellings : Crowd where
  callers :=
    [{ store := 0, faults := KeyFile.fullDisk }, { store := 1 }, { store := 2 }, { store := 0 }]
  stores :=
    [{ path := .ofString "key", fatal := false, lock := ["key", "home"], key := none },
      { path := .ofString "data/../key", fatal := true, lock := ["key", "home"], key := none },
      { path := .ofString "near/key", fatal := false, lock := ["key", "home"], key := none }]
  held := []
  world := linked

/-- The name is free in the working directory, which the link leads to from outside. -/
theorem sees_key {s : Stem} (hs : s = ⟨false, []⟩ ∨ s = ⟨false, ["home", ".."]⟩) :
    Sees linked.files 1 s ["key"] (s.push "key") := by
  have hname : IsEntryName "key" := ⟨by decide, by decide, by decide⟩
  rcases hs with rfl | rfl
  · exact .plain hname rfl (.of_lookup rfl) nofun (.arrived _)
  · exact .plain hname rfl (.of_lookup rfl) nofun (.arrived _)

theorem sees_data_key :
    Sees linked.files 3 ⟨false, []⟩ ["data", "..", "key"] ⟨false, ["key"]⟩ :=
  .plain ⟨by decide, by decide, by decide⟩ rfl (.of_lookup rfl) nofun
    (.outer (sees_key (.inl rfl)))

theorem sees_near_key :
    Sees linked.files 4 ⟨false, []⟩ ["near", "key"] ⟨false, ["key", "home", ".."]⟩ := by
  have hhome : Sees linked.files 2 ⟨false, []⟩ ["..", "home"] ⟨false, ["home", ".."]⟩ :=
    .outer (.plain ⟨by decide, by decide, by decide⟩ rfl (.of_lookup rfl) nofun (.arrived _))
  exact .follow ⟨by decide, by decide, by decide⟩ rfl (.of_lookup rfl) rfl hhome
    (sees_key (.inr rfl))

theorem madeFor_of_sees {p : Path} {names : List String} {r : Stem} {k : Nat} (fatal : Bool)
    (hroot : p.root = .relative) (hnames : p.names = names)
    (hsees : Sees linked.files k ⟨false, []⟩ names r)
    (hlocation : linked.files.stemLocation r = ["key", "home"])
    (hcanonical : (linked.files.canonical p).toOption = some ["key", "home"]) :
    KeyStore.MadeFor ["key", "home"] { path := p, fatal, lock := ["key", "home"], key := none } ∧
      linked.files.Resolves (toString p) ["key", "home"] := by
  have hsight : Sees linked.files k ⟨p.root ≠ .relative, []⟩ p.names r := by
    rw [hnames, hroot]
    exact hsees
  have hresolves := hlocation ▸ hsight.resolves
  have hmade := KeyStore.lead_make (canonical_of_toOption hcanonical) fatal
  exact ⟨⟨linked, hmade, hresolves, k, r, hsight⟩, hresolves⟩

end Crowd

end Strongbox
