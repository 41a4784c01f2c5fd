import Strongbox.Proofs.Json.Rendering
import Strongbox.Proofs.Properties.View
import Strongbox.Properties.Document

/-! # Properties from documents

From the files to the view: documents are read, each becomes a source, and the sources are merged.
Within a document the last member under a name counts, and among documents the first that has the
name; how a name or a value is written in its document makes no difference. -/

namespace Strongbox

/-! ## Names in the order of their first appearance -/

section FirstAppearance

variable {α : Type} [DecidableEq α]

theorem filter_eraseDups (keep : α → Bool) (xs : List α) :
    xs.eraseDups.filter keep = (xs.filter keep).eraseDups := by
  induction xs using List.reverseRecOn with
  | nil => rfl
  | append_singleton xs x ih =>
      rw [List.eraseDups_append, List.filter_append, List.filter_append, ih, List.eraseDups_append]
      by_cases hx : x ∈ xs <;> by_cases hkeep : keep x <;>
        simp [List.removeAll, List.eraseDups_cons, hx, hkeep]

theorem eraseDups_eraseDups (xs : List α) : xs.eraseDups.eraseDups = xs.eraseDups := by
  induction xs using List.reverseRecOn with
  | nil => rfl
  | append_singleton xs x ih =>
      rw [List.eraseDups_append]
      by_cases hx : x ∈ xs
      · simpa [List.removeAll, hx] using ih
      · rw [List.eraseDups_append, ih]
        simp [List.removeAll, List.eraseDups_cons, hx]

/-- Repetitions within a part do not count. -/
theorem eraseDups_flatMap_eraseDups (parts : List (List α)) :
    (parts.flatMap List.eraseDups).eraseDups = parts.flatten.eraseDups := by
  induction parts with
  | nil => rfl
  | cons xs parts ih =>
      rw [List.flatMap_cons, List.flatten_cons, List.eraseDups_append, List.eraseDups_append,
        eraseDups_eraseDups, List.removeAll, List.removeAll, ← filter_eraseDups, ih,
        ← filter_eraseDups]
      simp

end FirstAppearance

/-! ## What a member says -/

/-- A written value stands for itself if it is not marked, and otherwise for the text that the
handler has made it from. -/
inductive Handler.Stands (h : Handler) : String → String → Prop
  | plain {s : String} : ¬ h.marker.toList <+: s.toList → h.Stands s s
  | marked {written t : String} {a a' : Ambient} :
      perform (h.encryptText (.text t)) a = (.ok written, a') → h.Stands written t

namespace Cipher

variable {c : Cipher} {a a' : Ambient}

/-- A cipher that has encrypted is sound, and the plaintext was not too long for it. -/
theorem of_encrypt_eq_ok {kind : ByteKind} {plaintext envelope : Bytes}
    (h : perform (c.encrypt (.bytes kind plaintext)) a = (.ok envelope, a')) :
    c.fault = none ∧ plaintext.length ≤ maxPlaintext := by
  have hfail : ∀ f : Fault, c.seal? (a.entropy.draw Envelope.ivSize).1 plaintext = .error f →
      False := by
    intro f hf
    rw [encrypt, perform_bind, Task.perform_draw] at h
    simp only [hf] at h
    split at h <;> cases (Prod.mk.inj h).1
  rw [seal?] at hfail
  cases hfault : c.fault with
  | some f =>
      rw [hfault] at hfail
      exact (hfail f rfl).elim
  | none =>
      rw [hfault] at hfail
      refine ⟨rfl, Nat.not_lt.mp fun hlong => hfail tooLong ?_⟩
      rw [if_pos hlong]

end Cipher

namespace Handler

variable {h : Handler}

theorem of_encryptText_eq_ok {t written : String} {a a' : Ambient}
    (he : perform (h.encryptText (.text t)) a = (.ok written, a')) :
    h.cipher.fault = none ∧ t.utf8ByteSize ≤ Cipher.maxPlaintext := by
  obtain ⟨encoded, a₁, hencoded, -⟩ := Task.perform_bind_eq_ok_iff.mp he
  obtain ⟨envelope, a₂, henvelope, -⟩ := Task.perform_bind_eq_ok_iff.mp hencoded
  exact Cipher.of_encrypt_eq_ok henvelope

theorem Stands.yields {written t : String} (hs : h.Stands written t) :
    (h.decryptText (.text written)).Yields (.text t) := by
  cases hs with
  | plain hplain =>
      refine yields_decryptText_of_unmarked
        (marked?_eq_none (fun encoded heq => hplain ?_) fun _ => nofun)
      rw [Value.text.inj heq, String.toList_append]
      exact List.prefix_append _ _
  | @marked _ a a' hencrypt =>
      obtain ⟨hfault, hsize⟩ := of_encryptText_eq_ok hencrypt
      rw [perform_encryptText hfault hsize] at hencrypt
      obtain rfl := Except.ok.inj (Prod.mk.inj hencrypt).1
      refine yields_decryptText_of_marked (marked?_append _) fun b => ?_
      exact Cipher.perform_decryptText_encode hfault
        (Entropy.length_draw a.entropy Envelope.ivSize) t b

/-- Behind the marker of a value that decrypts is an envelope that decrypts. -/
theorem exists_yields_of_marked {v w encoded : Value}
    (hv : h.marked? v = some encoded) (hw : (h.decryptText v).Yields w) :
    ∃ s, (h.cipher.decryptText encoded).Yields s := by
  have hstart := hw ⟨.ofBytes [], .ofBytes [], []⟩
  rw [decryptText, hv] at hstart
  obtain ⟨s, a, hs, -⟩ := Task.perform_bind_eq_ok_iff.mp hstart
  exact ⟨s, (h.cipher.steady_decryptText _ _ s a hs).1⟩

end Handler

namespace Properties

variable {h : Handler}

/-- A member of a document: its name, its value as it is written, and what the value stands for. -/
structure Member (h : Handler) where
  name : String
  written : String
  meaning : String
  stands : h.Stands written meaning

/-- The last member under a name, in the first document that has the name. -/
def member? (documents : List (List (Member h))) (k : String) : Option (Member h) :=
  (documents.find? fun ms => ms.any fun m => m.name = k).bind fun ms =>
    ms.reverse.find? fun m => m.name = k

/-- The file at a path holds a rendering of the members, as one object. -/
def Holds (files : FileTree) (path : String) (ms : List (Member h)) : Prop :=
  (Path.ofString path).hasNul = false ∧
    ∃ document, files.readFile (toString (Path.ofString path)) = .ok document ∧
      Json.Renders (ms.map fun m => (m.name, m.written)) document

/-! ## Sources -/

def sourceOf (ms : List (Member h)) : Source :=
  Dictionary.ofList (ms.map fun m => (m.name, .text m.written))

theorem ofDocument_of_renders {ms : List (Member h)} {document : Bytes} (path : String)
    (hms : Json.Renders (ms.map fun m => (m.name, m.written)) document) :
    Source.ofDocument path document = .ok (sourceOf ms) := by
  rw [Source.ofDocument, Json.parse?_of_renders hms, List.map_map]
  dsimp only [Value.ofEntries]
  rw [Value.textEntries_map_text, Dictionary.ofList_entries]
  rfl

theorem perform_load {w : World} {path : String} {ms : List (Member h)}
    (hpath : Holds w.files path ms) : perform (load path) w = (.ok (sourceOf ms), w) := by
  obtain ⟨hnul, document, hread, hms⟩ := hpath
  have hget : perform (get : Action World) w = (.ok w, w) := rfl
  have hdocument : perform (readDocument (.ofString path)) w = (.ok document, w) := by
    simp only [readDocument, hnul, Bool.false_eq_true, if_false, perform_bind, hget, hread,
      perform_pure]
  rw [load, perform_bind, hdocument]
  simp only [ofDocument_of_renders path hms, perform_pure]

theorem perform_mapM_load {w : World} {paths : List String} {documents : List (List (Member h))}
    (hfiles : List.Forall₂ (Holds w.files) paths documents) :
    perform (paths.mapM load) w = (.ok (documents.map sourceOf), w) := by
  induction hfiles with
  | nil => rfl
  | cons hpath _ ih => simp [perform_load hpath, ih, Except.map]

theorem find?_sourceOf (ms : List (Member h)) (k : String) :
    (sourceOf ms).find? k =
      (ms.reverse.find? fun m => m.name = k).map fun m => .text m.written := by
  rw [sourceOf, Dictionary.find?_ofList, ← List.map_reverse]
  induction ms.reverse with
  | nil => rfl
  | cons m ms ih =>
      rw [List.map_cons, List.lookup_cons, List.find?_cons, ih]
      by_cases hk : k = m.name
      · simp [hk]
      · simp [beq_false_of_ne hk, Ne.symm hk]

theorem keys_sourceOf (ms : List (Member h)) :
    (sourceOf ms).keys = (ms.map Member.name).eraseDups := by
  rw [sourceOf, Dictionary.keys_ofList, List.map_map]
  rfl

/-- The member that governs a name is the owner of the name among the sources. -/
theorem owner?_sources (documents : List (List (Member h))) (k : String) :
    owner? (documents.map sourceOf) k = (member? documents k).map fun m => .text m.written := by
  induction documents with
  | nil => rfl
  | cons ms documents ih =>
      rw [List.map_cons, owner?_cons, find?_sourceOf, ih, member?.eq_1 (ms :: documents),
        List.find?_cons]
      cases hlast : ms.reverse.find? fun m => m.name = k with
      | none =>
          have hnone : (ms.any fun m => m.name = k) = false := by
            rw [List.find?_eq_none] at hlast
            simpa using hlast
          rw [hnone]
          rfl
      | some m =>
          have hsome : (ms.any fun m => m.name = k) = true := by
            have hmem := List.mem_of_find?_eq_some hlast
            have hname := List.find?_some hlast
            rw [List.any_eq_true]
            exact ⟨m, List.mem_reverse.mp hmem, hname⟩
          rw [hsome]
          simp [hlast]

theorem names_sources (documents : List (List (Member h))) :
    names (documents.map sourceOf) =
      (documents.flatMap fun ms => ms.map Member.name).eraseDups := by
  have hkeys : (documents.map sourceOf).flatMap Dictionary.keys =
      (documents.map fun ms => ms.map Member.name).flatMap List.eraseDups := by
    rw [List.flatMap_map, List.flatMap_map]
    congr 1
    funext ms
    exact keys_sourceOf ms
  rw [names, hkeys, eraseDups_flatMap_eraseDups, ← List.flatMap_def]

/-! ## From the files to the view -/

/-- No marked value that is replaced within its document or hidden by an earlier one is ever looked
at; those that are looked at all decrypt. -/
theorem exists_build (documents : List (List (Member h))) (a : Ambient) :
    ∃ p a', perform (PropertyView.build h (documents.map sourceOf)) a = (.ok p, a') := by
  refine PropertyView.exists_build ?_ a
  intro k v encoded howner hv
  rw [owner?_sources] at howner
  obtain ⟨m, -, rfl⟩ := Option.map_eq_some_iff.mp howner
  exact Handler.exists_yields_of_marked hv m.stands.yields

theorem get_of_build {documents : List (List (Member h))} {a a' : Ambient} {p : PropertyView}
    (hp : perform (PropertyView.build h (documents.map sourceOf)) a = (.ok p, a')) (k : String) :
    p.get k = match member? documents k with
      | some m => .ok (.text m.meaning)
      | none => .error (.missingKey k) := by
  have hrel := PropertyView.find?_of_build hp k
  rw [owner?_sources] at hrel
  rw [PropertyView.get]
  generalize p.find? k = found at hrel
  cases hm : member? documents k with
  | none =>
      rw [hm, Option.map_none] at hrel
      cases hrel
      rfl
  | some m =>
      rw [hm, Option.map_some] at hrel
      cases hrel with
      | @some _ v hv =>
          have hboth := (hv ⟨.ofBytes [], .ofBytes [], []⟩).symm.trans (m.stands.yields _)
          obtain rfl := Except.ok.inj (Prod.mk.inj hboth).1
          rfl

/-- Read from their files and merged, documents give under each name what its last member stands
for in the first document that has the name, however the documents are written. -/
theorem load_build_presents (h : Handler) (documents : List (List (Member h)))
    (paths : List String) (w : World)
    (hfiles : List.Forall₂ (Holds w.files) paths documents) :
    ∃ p w', perform (do
        let sources ← paths.mapM load
        (PropertyView.build h sources).inWorld) w = (.ok p, w') ∧
      w'.files = w.files ∧
      p.keys = (documents.flatMap fun ms => ms.map Member.name).eraseDups ∧
      (∀ k, p.get k = match member? documents k with
        | some m => .ok (.text m.meaning)
        | none => .error (.missingKey k)) ∧
      ∀ k, k ∈ p.decryptedKeys ↔
        ∃ m, member? documents k = some m ∧ h.isMarked (.text m.written) = true := by
  obtain ⟨p, a', hp⟩ := exists_build documents w.ambient
  refine ⟨p, { w with ambient := a' }, ?_, rfl, ?_, get_of_build hp, ?_⟩
  · have hworld : perform (PropertyView.build h (documents.map sourceOf)).inWorld w =
        ((perform (PropertyView.build h (documents.map sourceOf)) w.ambient).1,
          { w with ambient := (perform (PropertyView.build h (documents.map sourceOf))
            w.ambient).2 }) := rfl
    rw [perform_bind, perform_mapM_load hfiles]
    simp only [hworld, hp]
  · rw [PropertyView.keys_eq_names, (PropertyView.sources_of_build hp).1, names_sources]
  · intro k
    rw [PropertyView.mem_decryptedKeys_iff hp, owner?_sources]
    cases member? documents k <;> simp

/-- A marked member that a plain one replaces under the same name spelled otherwise, and a document
whose first member is hidden. -/
theorem load_build_presents_respelled :
    let h : Handler :=
      { cipher := { key := ⟨List.replicate 32 0, by decide⟩ }, marker := Handler.standardMarker }
    let hush : String := "\x7bAES256\x7dBwcHBwcHBwcHBwcHFb3bo7hD4WtBQxVtFSJRYKdlRdE="
    let first : String :=
      "\x7b\"k\":\"" ++ hush ++ "\",\"pw\":\"" ++ hush ++ "\",\"\\u006B\":\"new\"\x7d"
    let second : String := "\x7b \"k\" : \"old\",\n\"\" : \"\\ud83d\\uDE00\\/\" \x7d\n"
    let w : World :=
      { ambient := ⟨.ofBytes [], .ofBytes [], []⟩
        files :=
          { entries := [(["a.json"], .file 0o644 (Utf8.encode first)),
              (["b.json"], .file 0o644 (Utf8.encode second))]
            workingDirectory := [] } }
    ∃ p w', perform (do
        let sources ← ["a.json", "b.json"].mapM load
        (PropertyView.build h sources).inWorld) w = (.ok p, w') ∧
      w'.files = w.files ∧
      p.keys = ["k", "pw", ""] ∧
      p.get "k" = .ok (.text "new") ∧ p.get "pw" = .ok (.text "hush") ∧
      p.get "" = .ok (.text "😀/") ∧
      "pw" ∈ p.decryptedKeys ∧ "k" ∉ p.decryptedKeys := by
  intro h hush first second w
  have hmarked : h.Stands hush "hush" := by
    have hsize : "hush".utf8ByteSize ≤ Cipher.maxPlaintext := by decide
    have hencrypt := Handler.perform_encryptText (h := h) rfl hsize
      ⟨.ofBytes (List.replicate 12 7), .ofBytes [], []⟩
    have hhush : h.marker ++ Base64.encode (Envelope.close h.cipher.key (List.replicate 12 7)
        (Utf8.encode "hush")) = hush := by decide +kernel
    exact .marked (hhush ▸ hencrypt)
  have hplain : ∀ s : String, ¬ h.marker.toList <+: s.toList → h.Stands s s := fun _ => .plain
  let one : List (Member h) :=
    [⟨"k", hush, "hush", hmarked⟩, ⟨"pw", hush, "hush", hmarked⟩,
      ⟨"k", "new", "new", hplain _ (by decide)⟩]
  let two : List (Member h) :=
    [⟨"k", "old", "old", hplain _ (by decide)⟩, ⟨"", "😀/", "😀/", hplain _ (by decide)⟩]
  have hnil : Json.Blank [] := by decide
  have hspace : Json.Blank [' '] := by decide
  have hline : Json.Blank ['\n'] := by decide
  have hraw : ∀ s : String, s.toList.all (Json.IsRaw ·) = true →
      Json.Quoted s ('"' :: s.toList ++ ['"']) := fun s hs => .string hnil (.raw hs) hnil
  have hhush : Json.Quoted hush ('"' :: hush.toList ++ ['"']) := hraw hush (by decide +kernel)
  have hone : Json.Renders (one.map fun m => (m.name, m.written)) (Utf8.encode first) := by
    have hk : Json.Written 'k' "\\u006B".toList :=
      .unit (@Json.Unit16.digits 0 0 6 11 '0' '0' '6' 'B' (.inl rfl) (.inl rfl) (.inl rfl)
        (.inr rfl))
    have hname : Json.Quoted "k" ('"' :: ("\\u006B".toList ++ []) ++ ['"']) :=
      .string hnil (.cons hk .nil) hnil
    have hmembers := Json.Members.comma (.colon (hraw "k" (by decide)) hhush)
      (.comma (.colon (hraw "pw" (by decide)) hhush)
        (.last (.colon hname (hraw "new" (by decide)))))
    refine ⟨_, .members hnil hmembers hnil, ?_⟩
    decide +kernel
  have htwo : Json.Renders (two.map fun m => (m.name, m.written)) (Utf8.encode second) := by
    have hface : Json.Written '😀' ('\\' :: 'u' :: ['d', '8', '3', 'd'] ++
        '\\' :: 'u' :: ['D', 'E', '0', '0']) :=
      .pair (by decide)
        (@Json.Unit16.digits 13 8 3 13 'd' '8' '3' 'd' (.inl rfl) (.inl rfl) (.inl rfl) (.inl rfl))
        (@Json.Unit16.digits 13 14 0 0 'D' 'E' '0' '0' (.inr rfl) (.inr rfl) (.inl rfl) (.inl rfl))
    have hslash : Json.Written '/' ['\\', '/'] := .short (by decide)
    have hk : Json.Quoted "k" _ := .string hspace (.raw (by decide)) hspace
    have hold : Json.Quoted "old" _ := .string hspace (.raw (by decide)) hnil
    have hempty : Json.Quoted "" _ := .string hline .nil hspace
    have hvalue : Json.Quoted "😀/" _ := .string hspace (.cons hface (.cons hslash .nil)) hspace
    refine ⟨_, .members hnil (.comma (.colon hk hold) (.last (.colon hempty hvalue))) hline, ?_⟩
    decide +kernel
  have hfiles : List.Forall₂ (Holds w.files) ["a.json", "b.json"] [one, two] := by
    refine .cons ⟨by decide, _, ?_, hone⟩ (.cons ⟨by decide, _, ?_, htwo⟩ .nil)
    · decide +kernel
    · decide +kernel
  obtain ⟨p, w', hperform, hkept, hkeys, hget, hdecrypted⟩ :=
    load_build_presents h [one, two] ["a.json", "b.json"] w hfiles
  have hhidden : h.isMarked (.text hush) = true := by decide
  have hnew : h.isMarked (.text "new") = false := by decide
  refine ⟨p, w', hperform, hkept, hkeys, hget "k", hget "pw", hget "", ?_, ?_⟩
  · exact (hdecrypted "pw").mpr ⟨⟨"pw", hush, "hush", hmarked⟩, rfl, hhidden⟩
  · intro hk
    obtain ⟨m, hm, hmarked⟩ := (hdecrypted "k").mp hk
    obtain rfl := Option.some.inj hm
    exact Bool.false_ne_true (hnew.symm.trans hmarked)

end Properties

end Strongbox
