import Strongbox.Proofs.Keys.Material
import Strongbox.Proofs.KeyStore
import Strongbox.Proofs.Secrecy.SideBySide

/-! # Key files and key stores keep their secret

The making of a key file is followed stage by stage on two worlds that are alike. Its stages carry
the key, and what they log and how they end depends on its length at most. -/

namespace Strongbox

/-- Two results that look alike through `f` are the same error or two values that look alike. -/
theorem cases_of_map_eq {ε α β : Type} {f : α → β} {r r' : Except ε α}
    (h : r.map f = r'.map f) :
    (∃ e, r = .error e ∧ r' = .error e) ∨ ∃ x x', r = .ok x ∧ r' = .ok x' ∧ f x = f x' := by
  cases r with
  | error e =>
      cases r' with
      | ok _ => cases h
      | error e' => exact .inl ⟨e, rfl, congrArg _ (Except.error.inj h).symm⟩
  | ok x =>
      cases r' with
      | error _ => cases h
      | ok x' => exact .inr ⟨x, x', rfl, rfl, Except.ok.inj h⟩

theorem map_mapError_congr {ε δ α β : Type} {f : α → β} {r r' : Except ε α}
    (h : r.map f = r'.map f) (g : ε → δ) : (r.mapError g).map f = (r'.mapError g).map f := by
  obtain ⟨e, rfl, rfl⟩ | ⟨x, x', rfl, rfl, hx⟩ := cases_of_map_eq h
  · rfl
  · exact congrArg Except.ok hx

namespace KeyFile

/-- The same faults, but for what a rival writes, of which only the size is the same. -/
structure Faults.Alike (f f' : Faults) : Prop where
  rival : f.rival.map List.length = f'.rival.map List.length
  rest : { f with rival := none } = { f' with rival := none }

/-- The same stage with a key of the same length. -/
inductive Stage.Alike : Stage → Stage → Prop
  | parents : Alike .parents .parents
  | check : Alike .check .check
  | load : Alike .load .load
  | draw : Alike .draw .draw
  | create {k k' : Bytes} : SameLength k k' → Alike (.create k) (.create k')
  | stream {k k' : Bytes} (l : Location) : SameLength k k' → Alike (.stream k l) (.stream k' l)
  | write {k k' : Bytes} (l : Location) : SameLength k k' → Alike (.write k l) (.write k' l)
  | close {k k' : Bytes} : SameLength k k' → Alike (.close k) (.close k')
  | discard (cause : SystemError) : Alike (.discard cause) (.discard cause)
  | harden {k k' : Bytes} : SameLength k k' → Alike (.harden k) (.harden k')

inductive Move.Alike : Move → Move → Prop
  | next {s s' : Stage} : s.Alike s' → Alike (.next s) (.next s')
  | ended {r r' : Except Abort Bytes} : Matching SameLength r r' → Alike (.ended r) (.ended r')

/-- What a stage leads to, side by side. -/
def Agrees (o o' : Move × World) : Prop :=
  o.1.Alike o'.1 ∧ o.2.Alike o'.2

namespace Move.Alike

theorem unusable (path : Path) (e : SystemError) :
    Move.Alike (.unusable path e) (.unusable path e) :=
  .ended (.error _)

theorem misused (m : Misuse) : Move.Alike (.misused m) (.misused m) :=
  .ended (.error _)

theorem interrupted (i : Interruption) : Move.Alike (.interrupted i) (.interrupted i) := by
  cases i with
  | system e => exact .next (.discard e)
  | foreign f => exact .ended (.error _)

end Move.Alike

variable (path : Path) {faults faults' : Faults} {w w' : World} {k k' : Bytes}

/-- Files that are alike after a change that is made in the same way. -/
theorem alike_files (hw : w.Alike w') {t t' : FileTree} (ht : t.outline = t'.outline) :
    World.Alike { w with files := t } { w' with files := t' } :=
  ⟨hw.ambient, ht⟩

theorem outline_fill_eq {t t' : FileTree} (ht : t.outline = t'.outline) (l : Location)
    (hk : SameLength k k') : (t.fill l k).outline = (t'.fill l k').outline := by
  rw [FileTree.outline_fill, FileTree.outline_fill, ht, Bytes.blank_eq_iff.mpr hk]

theorem makeParents_agrees (hf : faults.parents = faults'.parents) (hw : w.Alike w') :
    Agrees (makeParents path faults w) (makeParents path faults' w') := by
  rw [makeParents, makeParents, hf]
  split
  · exact ⟨.misused _, hw⟩
  · cases faults'.parents with
    | some e => exact ⟨.unusable path e, hw⟩
    | none =>
        have hensure := congrArg (FileTree.ensureDirectory · path.parent) hw.files
        rw [FileTree.ensureDirectory_outline, FileTree.ensureDirectory_outline] at hensure
        generalize w.files.ensureDirectory path.parent = led at hensure
        generalize w'.files.ensureDirectory path.parent = led' at hensure
        obtain ⟨r, t⟩ := led
        obtain ⟨r', t'⟩ := led'
        obtain ⟨hr, ht⟩ := Prod.mk.inj hensure
        obtain rfl : r = r' := hr
        cases r with
        | error e => exact ⟨.unusable path e, alike_files hw ht⟩
        | ok u => exact ⟨.next .check, alike_files hw ht⟩

theorem lookForFile_agrees (hf : faults.check = faults'.check) (hw : w.Alike w') :
    Agrees (lookForFile path faults w) (lookForFile path faults' w') := by
  have hexists : w.files.pathExists (toString path) = w'.files.pathExists (toString path) := by
    rw [← FileTree.pathExists_outline, hw.files, FileTree.pathExists_outline]
  rw [lookForFile, lookForFile, hf, hexists]
  cases faults'.check with
  | some e => exact ⟨.unusable path e, hw⟩
  | none =>
      dsimp only
      split
      · exact ⟨.next .load, hw.record _ _⟩
      · exact ⟨.next .draw, hw⟩
      · exact ⟨.unusable path _, hw⟩

theorem loadFile_agrees (hf : faults.load = faults'.load) (hw : w.Alike w') :
    Agrees (loadFile path faults w) (loadFile path faults' w') := by
  have hread := congrArg (FileTree.readFile · (toString path)) hw.files
  rw [FileTree.readFile_outline, FileTree.readFile_outline] at hread
  rw [loadFile, loadFile, hf]
  cases faults'.load with
  | some e => exact ⟨.unusable path e, hw⟩
  | none =>
      obtain ⟨code, hr, hr'⟩ | ⟨content, content', hr, hr', hcontent⟩ := cases_of_map_eq hread
      · rw [hr, hr']
        exact ⟨.unusable path _, hw⟩
      · rw [hr, hr']
        exact ⟨.ended (.ok (Bytes.blank_eq_iff.mp hcontent)), hw⟩

theorem drawSecret_agrees (hf : faults.entropy = faults'.entropy) (hw : w.Alike w') :
    Agrees (drawSecret path faults w) (drawSecret path faults' w') := by
  rw [drawSecret, drawSecret, hf]
  cases faults'.entropy with
  | some e => exact ⟨.unusable path e, hw⟩
  | none =>
      have hlen : SameLength (w.ambient.entropy.draw Key.size).1 (w'.ambient.entropy.draw Key.size).1 :=
        (Entropy.length_draw _ _).trans (Entropy.length_draw _ _).symm
      refine ⟨.next (.create hlen), World.Alike.record ?_ _ _⟩
      exact ⟨hw.ambient, hw.files⟩

theorem afterRival_outline {t t' : FileTree} (ht : t.outline = t'.outline)
    (hf : faults.rival.map List.length = faults'.rival.map List.length) :
    (afterRival path faults t).map FileTree.outline =
      (afterRival path faults' t').map FileTree.outline := by
  rw [afterRival, afterRival]
  cases hrival : faults.rival with
  | none =>
      rw [hrival] at hf
      rw [Option.map_eq_none_iff.mp hf.symm]
      exact congrArg Except.ok ht
  | some content =>
      rw [hrival] at hf
      obtain ⟨content', hrival', hlen⟩ := Option.map_eq_some_iff.mp hf.symm
      rw [hrival']
      dsimp only
      rw [← FileTree.writeFile_outline, ← FileTree.writeFile_outline, ht,
        Bytes.blank_eq_iff.mpr hlen]

/-- The creation leaves alike what a rival made, and makes the same file or fails in the same way. -/
theorem creation_outline (hf : faults.Alike faults') {t t' : FileTree}
    (ht : t.outline = t'.outline) :
    (creation path faults t).1.outline = (creation path faults' t').1.outline ∧
      (creation path faults t).2.map (Prod.map id FileTree.outline) =
        (creation path faults' t').2.map (Prod.map id FileTree.outline) := by
  have hcreate : faults.create = faults'.create := (congrArg Faults.create hf.rest :)
  rw [creation, creation, hcreate]
  obtain ⟨code, hr, hr'⟩ | ⟨u, u', hr, hr', hu⟩ := cases_of_map_eq (afterRival_outline path ht hf.rival)
  · rw [hr, hr']
    exact ⟨ht, rfl⟩
  · rw [hr, hr']
    cases faults'.create with
    | some e => exact ⟨hu, rfl⟩
    | none =>
        refine ⟨hu, ?_⟩
        have hfile := congrArg (FileTree.createFile · (toString path) openMode) hu
        rw [FileTree.createFile_outline, FileTree.createFile_outline] at hfile
        exact map_mapError_congr hfile _

theorem createFile_agrees (hf : faults.Alike faults') (hk : SameLength k k') (hw : w.Alike w') :
    Agrees (createFile path faults k w) (createFile path faults' k' w') := by
  rw [createFile, createFile]
  split
  · exact ⟨.misused _, hw⟩
  · obtain ⟨ht, hcreated⟩ := creation_outline path hf hw.files
    generalize creation path faults w.files = led at ht hcreated
    generalize creation path faults' w'.files = led' at ht hcreated
    obtain ⟨t, r⟩ := led
    obtain ⟨t', r'⟩ := led'
    obtain ⟨e, rfl, rfl⟩ | ⟨⟨l, u⟩, ⟨l', u'⟩, rfl, rfl, hx⟩ := cases_of_map_eq hcreated
    · exact ⟨.unusable path e, alike_files hw ht⟩
    · obtain ⟨hl, hu⟩ := Prod.mk.inj hx
      obtain rfl : l = l' := hl
      exact ⟨.next (.stream l hk), alike_files hw hu⟩

theorem openStream_agrees (hf : faults.stream = faults'.stream) (l : Location)
    (hk : SameLength k k') (hw : w.Alike w') :
    Agrees (openStream faults k l w) (openStream faults' k' l w') := by
  rw [openStream, openStream, hf]
  cases faults'.stream with
  | some i => exact ⟨.interrupted i, hw⟩
  | none => exact ⟨.next (.write l hk), hw⟩

theorem writeSecret_agrees (hf : faults.write = faults'.write) (l : Location)
    (hk : SameLength k k') (hw : w.Alike w') :
    Agrees (writeSecret faults k l w) (writeSecret faults' k' l w') := by
  rw [writeSecret, writeSecret, hf]
  cases faults'.write with
  | some broken =>
      obtain ⟨kept, i⟩ := broken
      have htake : SameLength (k.take kept) (k'.take kept) := by
        rw [SameLength, List.length_take, List.length_take, hk]
      exact ⟨.interrupted i, alike_files hw (outline_fill_eq hw.files l htake)⟩
  | none => exact ⟨.next (.close hk), alike_files hw (outline_fill_eq hw.files l hk)⟩

theorem closeStream_agrees (hf : faults.close = faults'.close) (hk : SameLength k k')
    (hw : w.Alike w') : Agrees (closeStream faults k w) (closeStream faults' k' w') := by
  rw [closeStream, closeStream, hf]
  cases faults'.close with
  | some i => exact ⟨.interrupted i, hw⟩
  | none => exact ⟨.next (.harden hk), hw⟩

theorem discardPartial_agrees (hf : faults.discard = faults'.discard) (cause : SystemError)
    (hw : w.Alike w') :
    Agrees (discardPartial path faults cause w) (discardPartial path faults' cause w') := by
  have hremoval : (removal path faults w).map FileTree.outline =
      (removal path faults' w').map FileTree.outline := by
    have hunlink := congrArg (FileTree.unlink · (toString path)) hw.files
    rw [FileTree.unlink_outline, FileTree.unlink_outline] at hunlink
    rw [removal, removal, hf]
    cases faults'.discard with
    | some e => rfl
    | none => exact map_mapError_congr hunlink _
  rw [discardPartial, discardPartial]
  obtain ⟨e, hr, hr'⟩ | ⟨t, t', hr, hr', ht⟩ := cases_of_map_eq hremoval
  · rw [hr, hr']
    exact ⟨.unusable path cause, hw.record _ _⟩
  · rw [hr, hr']
    exact ⟨.unusable path cause, alike_files hw ht⟩

theorem hardenFile_agrees (hf : faults.harden = faults'.harden) (hk : SameLength k k')
    (hw : w.Alike w') : Agrees (hardenFile path faults k w) (hardenFile path faults' k' w') := by
  have hhardening : (hardening path faults w).map FileTree.outline =
      (hardening path faults' w').map FileTree.outline := by
    have hmode := congrArg (FileTree.changeMode · (toString path) hardMode) hw.files
    rw [FileTree.changeMode_outline, FileTree.changeMode_outline] at hmode
    rw [hardening, hardening, hf]
    cases faults'.harden with
    | some e => rfl
    | none => exact map_mapError_congr hmode _
  rw [hardenFile, hardenFile]
  obtain ⟨e, hr, hr'⟩ | ⟨t, t', hr, hr', ht⟩ := cases_of_map_eq hhardening
  · rw [hr, hr']
    exact ⟨.ended (.ok hk), hw.record _ _⟩
  · rw [hr, hr']
    exact ⟨.ended (.ok hk), alike_files hw ht⟩

theorem advance_agrees (hf : faults.Alike faults') {s s' : Stage} (hs : s.Alike s')
    (hw : w.Alike w') : Agrees (advance path faults s w) (advance path faults' s' w') := by
  cases hs with
  | parents => exact makeParents_agrees path (congrArg Faults.parents hf.rest :) hw
  | check => exact lookForFile_agrees path (congrArg Faults.check hf.rest :) hw
  | load => exact loadFile_agrees path (congrArg Faults.load hf.rest :) hw
  | draw => exact drawSecret_agrees path (congrArg Faults.entropy hf.rest :) hw
  | create hk => exact createFile_agrees path hf hk hw
  | stream l hk => exact openStream_agrees (congrArg Faults.stream hf.rest :) l hk hw
  | write l hk => exact writeSecret_agrees (congrArg Faults.write hf.rest :) l hk hw
  | close hk => exact closeStream_agrees (congrArg Faults.close hf.rest :) hk hw
  | discard cause => exact discardPartial_agrees path (congrArg Faults.discard hf.rest :) cause hw
  | harden hk => exact hardenFile_agrees path (congrArg Faults.harden hf.rest :) hk hw

/-- All stages to the end, by induction on those of the first run. -/
theorem finish_agrees (hf : faults.Alike faults') {s s' : Stage} (hs : s.Alike s')
    (hw : w.Alike w') :
    Matching SameLength (finish path faults s w).1 (finish path faults' s' w').1 ∧
      (finish path faults s w).2.Alike (finish path faults' s' w').2 := by
  fun_induction finish path faults s w generalizing s' w' with
  | case1 s w result hended =>
      obtain ⟨hmove, hleft⟩ := advance_agrees path hf hs hw
      rw [hended] at hmove
      generalize hmove' : (advance path faults' s' w').1 = move at hmove
      cases hmove with
      | ended hresult =>
          rw [finish_of_ended (Prod.ext hmove' rfl)]
          exact ⟨hresult, hleft⟩
  | case2 s w next hnext _ ih =>
      obtain ⟨hmove, hleft⟩ := advance_agrees path hf hs hw
      rw [hnext] at hmove
      generalize hmove' : (advance path faults' s' w').1 = move at hmove
      cases hmove with
      | next hstage =>
          rw [finish_of_next (Prod.ext hmove' rfl)]
          exact ih hstage hleft

theorem ensure_paired (hf : faults.Alike faults') :
    Paired World.Alike SameLength (ensure path faults) (ensure path faults') :=
  fun _ _ hw => finish_agrees path hf .parents hw

theorem ensureOrExit_paired (hf : faults.Alike faults') :
    Paired World.Alike SameLength (ensureOrExit path faults) (ensureOrExit path faults') := by
  refine (ensure_paired path hf).tryCatch fun e => ?_
  cases e with
  | failure f =>
      exact (Paired.log _ _).inWorld.bind fun _ _ _ => .throw _
  | _ => exact .throw _

end KeyFile

/-! ## Stores -/

namespace KeyStore

/-- The same store, with a key of the same length if it has one. -/
structure Alike (s s' : KeyStore) : Prop where
  path : s.path = s'.path
  fatal : s.fatal = s'.fatal
  lock : s.lock = s'.lock
  key : s.key.map List.length = s'.key.map List.length

end KeyStore

structure Custody.Alike (c c' : Custody) : Prop where
  store : c.store.Alike c'.store
  world : c.world.Alike c'.world

theorem Paired.inCustody {α β : Type} {R : α → β → Prop} {a : Action α} {a' : Action β}
    (h : Paired World.Alike R a a') : Paired Custody.Alike R a.inCustody a'.inCustody :=
  fun c c' hc => ⟨(h c.world c'.world hc.world).1, hc.store, (h c.world c'.world hc.world).2⟩

namespace KeyStore

variable {faults faults' : KeyFile.Faults}

theorem make_paired (path : Path) (fatal : Bool) :
    Paired World.Alike Alike (make path fatal) (make path fatal) := by
  refine Paired.get_bind fun w w' hw => ?_
  have hlock : w.files.canonical path = w'.files.canonical path := by
    rw [← FileTree.canonical_outline, hw.files, FileTree.canonical_outline]
  rw [hlock]
  cases w'.files.canonical path with
  | error m => exact .throw _
  | ok lock => exact .pure ⟨rfl, rfl, rfl, rfl⟩

theorem fetch_paired (hf : faults.Alike faults') {s s' : KeyStore} (hs : s.Alike s') :
    Paired World.Alike SameLength (s.fetch faults) (s'.fetch faults') := by
  rw [fetch, fetch, hs.path, hs.fatal]
  split
  · exact KeyFile.ensureOrExit_paired s'.path hf
  · exact KeyFile.ensure_paired s'.path hf

theorem load_paired (hf : faults.Alike faults') :
    Paired Custody.Alike SameLength (load faults) (load faults') := by
  refine Paired.get_bind fun c c' hc => ?_
  have hkey := hc.store.key
  dsimp only
  cases hk : c.store.key with
  | some key =>
      rw [hk] at hkey
      obtain ⟨key', hk', hlen⟩ := Option.map_eq_some_iff.mp hkey.symm
      rw [hk']
      exact .pure hlen.symm
  | none =>
      rw [hk] at hkey
      rw [Option.map_eq_none_iff.mp hkey.symm]
      refine (fetch_paired hf hc.store).inCustody.bind fun key key' hlen => ?_
      refine Paired.bind (Paired.modify fun s s' hs => ?_) fun _ _ _ => .pure hlen
      exact ⟨⟨hs.store.path, hs.store.fatal, hs.store.lock, congrArg some hlen⟩, hs.world⟩

end KeyStore

/-- Handlers that differ in their keys at most. -/
structure Handler.Alike (h h' : Handler) : Prop where
  fault : h.cipher.fault = h'.cipher.fault
  marker : h.marker = h'.marker

theorem Handler.make_paired {c c' : Cipher} (hc : c.fault = c'.fault) (marker : String) :
    Paired Ambient.Alike Alike (make c marker) (make c' marker) :=
  (Paired.log _ _).bind fun _ _ _ => .pure ⟨hc, rfl⟩

theorem KeyStore.handler_paired {faults faults' : KeyFile.Faults} (hf : faults.Alike faults')
    (marker : String) :
    Paired Custody.Alike Handler.Alike (handler marker faults) (handler marker faults') := by
  refine (load_paired hf).bind fun key key' hlen => ?_
  by_cases hkey : key.length = 32
  · rw [Cipher.ofKeyBytes_of_length hkey, Cipher.ofKeyBytes_of_length (hlen ▸ hkey)]
    have hmake : Paired Ambient.Alike Handler.Alike (Handler.make { key := ⟨key, hkey⟩ } marker)
        (Handler.make { key := ⟨key', hlen ▸ hkey⟩ } marker) := Handler.make_paired (by rfl) marker
    exact hmake.inWorld.inCustody
  · rw [Cipher.ofKeyBytes_of_length_ne hkey, Cipher.ofKeyBytes_of_length_ne (hlen ▸ hkey), hlen]
    exact .throw _

end Strongbox
