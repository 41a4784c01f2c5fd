import Mathlib.Tactic.Ring
import Strongbox.Json.Parser

/-! # Renderings of objects of strings

The grammar of JSON for objects whose values are strings, as a relation between what an object says
and how it may be written: with any insignificant white space, and with each character of a string
written as it is or as an escape. It is given without reference to a reader of it. -/

namespace Strongbox.Json

/-- Insignificant white space. -/
def Blank (cs : List Char) : Prop :=
  ∀ c ∈ cs, c = ' ' ∨ c = '\t' ∨ c = '\n' ∨ c = '\r'

instance (cs : List Char) : Decidable (Blank cs) :=
  List.decidableBAll (fun c => c = ' ' ∨ c = '\t' ∨ c = '\n' ∨ c = '\r') cs

/-! ## Characters -/

/-- The hexadecimal digits in the order of their values. -/
def lowerDigits : List Char := "0123456789abcdef".toList

def upperDigits : List Char := "0123456789ABCDEF".toList

/-- One hexadecimal digit of a value, in either case. -/
def HexDigit (d : Nat) (c : Char) : Prop :=
  lowerDigits[d]? = some c ∨ upperDigits[d]? = some c

/-- A 16-bit unit in four hexadecimal digits. -/
inductive Unit16 : Nat → List Char → Prop
  | digits {d₁ d₂ d₃ d₄ : Nat} {c₁ c₂ c₃ c₄ : Char} :
      HexDigit d₁ c₁ → HexDigit d₂ c₂ → HexDigit d₃ c₃ → HexDigit d₄ c₄ →
      Unit16 (d₁ * 16 ^ 3 + d₂ * 16 ^ 2 + d₃ * 16 + d₄) [c₁, c₂, c₃, c₄]

/-- The characters that have a short escape, each with the letter that stands for it. -/
def shortEscapes : List (Char × Char) :=
  [('"', '"'), ('\\', '\\'), ('/', '/'), ('\x08', 'b'), ('\x0c', 'f'), ('\n', 'n'), ('\r', 'r'),
    ('\t', 't')]

/-- The surrogates of a character beyond the 16-bit ones. -/
def leadingUnit (c : Char) : Nat := 0xd800 + (c.toNat - 0x10000) / 0x400

def trailingUnit (c : Char) : Nat := 0xdc00 + (c.toNat - 0x10000) % 0x400

/-- A character that may stand in a string as it is. -/
def IsRaw (c : Char) : Prop :=
  0x20 ≤ c.toNat ∧ c ≠ '"' ∧ c ≠ '\\'

instance : DecidablePred IsRaw := fun c =>
  inferInstanceAs (Decidable (0x20 ≤ c.toNat ∧ c ≠ '"' ∧ c ≠ '\\'))

/-- The ways to write one character of a string. -/
inductive Written : Char → List Char → Prop
  | raw {c : Char} : IsRaw c → Written c [c]
  | short {c letter : Char} : (c, letter) ∈ shortEscapes → Written c ['\\', letter]
  | unit {c : Char} {cs : List Char} : Unit16 c.toNat cs → Written c ('\\' :: 'u' :: cs)
  | pair {c : Char} {lead trail : List Char} : 0x10000 ≤ c.toNat → Unit16 (leadingUnit c) lead →
      Unit16 (trailingUnit c) trail → Written c ('\\' :: 'u' :: lead ++ '\\' :: 'u' :: trail)

theorem HexDigit.lt {d : Nat} {c : Char} (h : HexDigit d c) : d < 16 := by
  rcases h with hlower | hupper
  · exact (List.getElem?_eq_some_iff.mp hlower).1
  · exact (List.getElem?_eq_some_iff.mp hupper).1

theorem Unit16.lt {n : Nat} {cs : List Char} (h : Unit16 n cs) : n < 0x10000 := by
  cases h with
  | digits h₁ h₂ h₃ h₄ =>
      have := h₁.lt
      have := h₂.lt
      have := h₃.lt
      have := h₄.lt
      omega

/-! ## Strings, members and objects -/

/-- The characters of a string, one after the other. -/
inductive WrittenAll : List Char → List Char → Prop
  | nil : WrittenAll [] []
  | cons {c : Char} {s cs rest : List Char} :
      Written c cs → WrittenAll s rest → WrittenAll (c :: s) (cs ++ rest)

theorem WrittenAll.raw {s : List Char} (h : s.all (IsRaw ·) = true) : WrittenAll s s := by
  induction s with
  | nil => exact .nil
  | cons c s ih =>
      rw [List.all_cons, Bool.and_eq_true, decide_eq_true_eq] at h
      exact .cons (.raw h.1) (ih h.2)

/-- A string in quotes, with white space around it. -/
inductive Quoted : String → List Char → Prop
  | string {s : String} {before body after : List Char} :
      Blank before → WrittenAll s.toList body → Blank after →
      Quoted s (before ++ '"' :: body ++ '"' :: after)

inductive Member : String × String → List Char → Prop
  | colon {name value : String} {cs rest : List Char} :
      Quoted name cs → Quoted value rest → Member (name, value) (cs ++ ':' :: rest)

/-- One member or more, with commas between them. -/
inductive Members : List (String × String) → List Char → Prop
  | last {m : String × String} {cs : List Char} : Member m cs → Members [m] cs
  | comma {m : String × String} {ms : List (String × String)} {cs rest : List Char} :
      Member m cs → Members ms rest → Members (m :: ms) (cs ++ ',' :: rest)

inductive Object : List (String × String) → List Char → Prop
  | empty {before inside after : List Char} : Blank before → Blank inside → Blank after →
      Object [] (before ++ '\x7b' :: inside ++ '\x7d' :: after)
  | members {ms : List (String × String)} {before body after : List Char} :
      Blank before → Members ms body → Blank after →
      Object ms (before ++ '\x7b' :: body ++ '\x7d' :: after)

/-- The object as a document in UTF-8. -/
def Renders (ms : List (String × String)) (document : Bytes) : Prop :=
  ∃ cs, Object ms cs ∧ document = Utf8.encode (String.ofList cs)

/-! ## What is written is read -/

/-- Between tokens, the reader takes the characters for these tokens, whatever follows them. -/
def Reads (cs : List Char) (tokens : List Token) : Prop :=
  ∀ rest, Token.scanFrom .between (cs ++ rest) =
    (Token.scanFrom .between rest).map (tokens ++ ·)

namespace Reads

variable {cs cs' : List Char} {tokens tokens' : List Token}

theorem append (h : Reads cs tokens) (h' : Reads cs' tokens') :
    Reads (cs ++ cs') (tokens ++ tokens') := by
  intro rest
  rw [List.append_assoc, h, h', Option.map_map]
  congr 1
  funext more
  exact (List.append_assoc tokens tokens' more).symm

theorem scan? (h : Reads cs tokens) : Token.scan? cs = some tokens := by
  have hall := h []
  rw [List.append_nil] at hall
  rw [Token.scan?, hall, Token.scanFrom, Token.finish?, Option.map_some, List.append_nil]

end Reads

namespace Token

variable {mode next : Mode} {c : Char} {chars rest : List Char}

theorem scanFrom_cons {tokens : List Token} (hstep : step? mode c = some (tokens, next)) :
    scanFrom mode (c :: rest) = (scanFrom next rest).map (tokens ++ ·) := by
  rw [scanFrom, hstep]
  cases hmore : scanFrom next rest <;> simp [hmore]

/-- A character that completes no token. -/
theorem scanFrom_cons_silent (hstep : step? mode c = some ([], next)) :
    scanFrom mode (c :: rest) = scanFrom next rest := by
  rw [scanFrom_cons hstep]
  exact Option.map_id'

theorem scanFrom_quote : scanFrom .between ('"' :: rest) = scanFrom (.string []) rest :=
  scanFrom_cons_silent rfl

theorem scanFrom_backslash :
    scanFrom (.string chars) ('\\' :: rest) = scanFrom (.escape chars) rest :=
  scanFrom_cons_silent rfl

/-! ## Numeric escapes -/

theorem scanFrom_numeric :
    scanFrom (.string chars) ('\\' :: 'u' :: rest) = scanFrom (.unit chars none 0 0) rest := by
  rw [scanFrom_backslash]
  exact scanFrom_cons_silent rfl

theorem scanFrom_second (n : Nat) :
    scanFrom (.lead chars n) ('\\' :: 'u' :: rest) = scanFrom (.unit chars (some n) 0 0) rest := by
  have hbackslash : scanFrom (.lead chars n) ('\\' :: 'u' :: rest) =
      scanFrom (.leadEscape chars n) ('u' :: rest) := scanFrom_cons_silent rfl
  rw [hbackslash]
  exact scanFrom_cons_silent rfl

theorem hexDigit?_of {d : Nat} (h : HexDigit d c) : hexDigit? c = some d := by
  have hvalue : ∀ d < 16, lowerDigits[d]?.bind hexDigit? = some d ∧
      upperDigits[d]?.bind hexDigit? = some d := by decide
  obtain ⟨hlower, hupper⟩ := hvalue d h.lt
  rcases h with h | h
  · rwa [h] at hlower
  · rwa [h] at hupper

variable {lead : Option Nat} {count value d : Nat}

theorem scanFrom_digit (h : HexDigit d c) (hcount : count ≠ 3) :
    scanFrom (.unit chars lead count value) (c :: rest) =
      scanFrom (.unit chars lead (count + 1) (16 * value + d)) rest := by
  apply scanFrom_cons_silent
  simp [step?, hexDigit?_of h, hcount]

theorem scanFrom_lastDigit (h : HexDigit d c)
    (hunit : unit? chars lead (16 * value + d) = some next) :
    scanFrom (.unit chars lead 3 value) (c :: rest) = scanFrom next rest := by
  apply scanFrom_cons_silent
  simp [step?, hexDigit?_of h, hunit]

theorem scanFrom_unit16 {n : Nat} {cs : List Char} (hn : Unit16 n cs)
    (hunit : unit? chars lead n = some next) :
    scanFrom (.unit chars lead 0 0) (cs ++ rest) = scanFrom next rest := by
  cases hn with
  | @digits d₁ d₂ d₃ d₄ c₁ c₂ c₃ c₄ h₁ h₂ h₃ h₄ =>
      have hvalue : 16 * (16 * (16 * (16 * 0 + d₁) + d₂) + d₃) + d₄ =
          d₁ * 16 ^ 3 + d₂ * 16 ^ 2 + d₃ * 16 + d₄ := by ring
      rw [List.cons_append, List.cons_append, List.cons_append, List.cons_append,
        scanFrom_digit h₁ (by decide), scanFrom_digit h₂ (by decide),
        scanFrom_digit h₃ (by decide), scanFrom_lastDigit h₄ (hvalue ▸ hunit), List.nil_append]

theorem unit?_toNat (hsmall : c.toNat < 0x10000) :
    unit? chars none c.toNat = some (.string (c :: chars)) := by
  have hscalar : c.toNat < 0xd800 ∨ 0xdfff < c.toNat ∧ c.toNat < 0x110000 := c.valid
  have hlead : isLead c.toNat = false := by
    rw [isLead, Bool.and_eq_false_iff, decide_eq_false_iff_not, decide_eq_false_iff_not]
    omega
  have htrail : isTrail c.toNat = false := by
    rw [isTrail, Bool.and_eq_false_iff, decide_eq_false_iff_not, decide_eq_false_iff_not]
    omega
  simp [unit?, hlead, htrail]

theorem unit?_leadingUnit (hbig : 0x10000 ≤ c.toNat) :
    unit? chars none (leadingUnit c) = some (.lead chars (leadingUnit c)) := by
  have hscalar : c.toNat < 0xd800 ∨ 0xdfff < c.toNat ∧ c.toNat < 0x110000 := c.valid
  have hlead : isLead (leadingUnit c) = true := by
    rw [isLead, leadingUnit, Bool.and_eq_true, decide_eq_true_eq, decide_eq_true_eq]
    omega
  simp [unit?, hlead]

theorem unit?_trailingUnit (hbig : 0x10000 ≤ c.toNat) :
    unit? chars (some (leadingUnit c)) (trailingUnit c) = some (.string (c :: chars)) := by
  have htrail : isTrail (trailingUnit c) = true := by
    rw [isTrail, trailingUnit, Bool.and_eq_true, decide_eq_true_eq, decide_eq_true_eq]
    omega
  have hjoin : 0x10000 + (leadingUnit c - 0xd800) * 0x400 + (trailingUnit c - 0xdc00) =
      c.toNat := by
    rw [leadingUnit, trailingUnit]
    omega
  rw [unit?, if_pos htrail, hjoin, Char.ofNat_toNat]

/-! ## Strings -/

/-- However a character of a string is written, it is the next one of the string. -/
theorem scanFrom_written {cs : List Char} (hc : Written c cs) :
    scanFrom (.string chars) (cs ++ rest) = scanFrom (.string (c :: chars)) rest := by
  cases hc with
  | raw hraw =>
      obtain ⟨hlow, hquote, hbackslash⟩ := hraw
      exact scanFrom_cons_silent (by simp [step?, hquote, hbackslash, Nat.not_lt.mpr hlow])
  | @short letter hmem =>
      have hescape : ∀ e ∈ shortEscapes, e.2 ≠ 'u' ∧ escaped? e.2 = some e.1 := by decide
      obtain ⟨hu, hletter⟩ := hescape _ hmem
      rw [List.cons_append, scanFrom_backslash]
      exact scanFrom_cons_silent (by simp [step?, hu, hletter])
  | @unit cs hcs =>
      rw [List.cons_append, List.cons_append, scanFrom_numeric,
        scanFrom_unit16 hcs (unit?_toNat hcs.lt)]
  | @pair lead trail hbig hlead htrail =>
      simp only [List.cons_append, List.append_assoc]
      rw [scanFrom_numeric, scanFrom_unit16 hlead (unit?_leadingUnit hbig), scanFrom_second,
        scanFrom_unit16 htrail (unit?_trailingUnit hbig)]

theorem scanFrom_writtenAll {s cs : List Char} (hs : WrittenAll s cs) :
    scanFrom (.string chars) (cs ++ rest) = scanFrom (.string (s.reverse ++ chars)) rest := by
  induction hs generalizing chars with
  | nil => rfl
  | @cons c s cs more hc _ ih =>
      rw [List.append_assoc, scanFrom_written hc, ih, List.reverse_cons, List.append_assoc]
      rfl

end Token

/-! ## Objects -/

namespace Reads

theorem nil : Reads [] [] :=
  fun _ => Option.map_id'.symm

theorem blank {cs : List Char} (h : Blank cs) : Reads cs [] := by
  induction cs with
  | nil => exact nil
  | cons c cs ih =>
      have hspace : Token.isSpace c = true := by
        simpa [Token.isSpace, or_assoc] using h c List.mem_cons_self
      have hstep : Token.step? .between c = some ([], .between) := by
        rw [Token.step?, Token.between?, if_pos hspace]
      have hfirst : Reads [c] [] := fun rest => Token.scanFrom_cons hstep
      exact hfirst.append (ih fun c' hc' => h c' (List.mem_cons_of_mem c hc'))

theorem punctuation {c : Char} {t : Token}
    (hstep : Token.step? .between c = some ([t], .between)) : Reads [c] [t] :=
  fun _ => Token.scanFrom_cons hstep

theorem string {s : String} {cs : List Char} (h : Quoted s cs) : Reads cs [.text s] := by
  cases h with
  | @string before body after hbefore hbody hafter =>
      have hquotes : Reads ('"' :: body ++ ['"']) [.text s] := by
        intro rest
        rw [List.append_assoc, List.cons_append, Token.scanFrom_quote,
          Token.scanFrom_writtenAll hbody]
        refine Token.scanFrom_cons ?_
        simp [Token.step?]
      have hall := (blank hbefore).append (hquotes.append (blank hafter))
      simpa using hall

def memberTokens (m : String × String) : List Token :=
  [.text m.1, .colon, .text m.2]

theorem member {m : String × String} {cs : List Char} (h : Member m cs) :
    Reads cs (memberTokens m) := by
  cases h with
  | colon hname hvalue => exact (string hname).append ((punctuation rfl).append (string hvalue))

theorem commaMembers {ms : List (String × String)} {cs : List Char} (h : Members ms cs) :
    Reads (',' :: cs) (ms.flatMap fun m => .comma :: memberTokens m) := by
  induction h with
  | last hm => exact (punctuation (c := ',') rfl).append (member hm)
  | comma hm _ ih =>
      have hall := ((punctuation (c := ',') rfl).append (member hm)).append ih
      simpa using hall

theorem members {ms : List (String × String)} {cs : List Char} (h : Members ms cs) :
    ∃ m rest, ms = m :: rest ∧
      Reads cs (memberTokens m ++ rest.flatMap fun m => .comma :: memberTokens m) := by
  cases h with
  | @last m _ hm => exact ⟨m, [], rfl, by simpa using member hm⟩
  | @comma m rest _ _ hm hrest => exact ⟨m, rest, rfl, (member hm).append (commaMembers hrest)⟩

end Reads

namespace State

/-- After a member, the others follow up to the end of the object. -/
theorem run?_members (stack : List Frame) (acc : List (String × Value)) (name : String)
    (ms : List (String × String)) (rest : List Token) :
    run? ⟨.object acc name :: stack, .separator⟩
        ((ms.flatMap fun m => .comma :: Reads.memberTokens m) ++ .closeObject :: rest) =
      run? (deliver (objectOf ((ms.map fun m => (m.1, .text m.2)).reverse ++ acc)) stack) rest := by
  induction ms generalizing acc name with
  | nil => rfl
  | cons m ms ih =>
      rw [List.flatMap_cons, List.append_assoc, List.map_cons, List.reverse_cons,
        List.append_assoc]
      exact ih ((m.1, .text m.2) :: acc) m.1

theorem run?_object (m : String × String) (ms : List (String × String)) :
    start.run? (.openObject :: (Reads.memberTokens m ++
        (ms.flatMap fun m => .comma :: Reads.memberTokens m) ++ [.closeObject])) =
      some (objectOf ((m :: ms).map fun m => (m.1, Value.text m.2)).reverse) := by
  have hrun := run?_members [] [(m.1, .text m.2)] m.1 ms []
  rw [List.map_cons, List.reverse_cons]
  rw [List.append_assoc]
  exact hrun

end State

/-- What is written for an object is read as the object. -/
theorem parseChars?_of_object {ms : List (String × String)} {cs : List Char} (h : Object ms cs) :
    parseChars? cs =
      some (.ofEntries (Dictionary.ofList (ms.map fun m => (m.1, Value.text m.2))).entries) := by
  have hopen : Reads ['\x7b'] [.openObject] := .punctuation rfl
  have hclose : Reads ['\x7d'] [.closeObject] := .punctuation rfl
  cases h with
  | empty hbefore hinside hafter =>
      have hreads := (Reads.blank hbefore).append
        (hopen.append ((Reads.blank hinside).append (hclose.append (Reads.blank hafter))))
      have hscan := hreads.scan?
      simp only [List.singleton_append, List.nil_append] at hscan
      simp only [parseChars?, List.append_assoc, List.cons_append, hscan]
      rfl
  | members hbefore hbody hafter =>
      obtain ⟨m, rest, rfl, hmembers⟩ := Reads.members hbody
      have hreads := (Reads.blank hbefore).append
        (hopen.append (hmembers.append (hclose.append (Reads.blank hafter))))
      have hscan := hreads.scan?
      simp only [List.singleton_append, List.nil_append] at hscan
      have hrun := State.run?_object m rest
      rw [State.objectOf, List.reverse_reverse] at hrun
      simp only [parseChars?, List.append_assoc, List.cons_append, hscan]
      simpa using hrun

theorem parse?_of_renders {ms : List (String × String)} {document : Bytes}
    (h : Renders ms document) :
    parse? document =
      some (.ofEntries (Dictionary.ofList (ms.map fun m => (m.1, Value.text m.2))).entries) := by
  obtain ⟨cs, hcs, rfl⟩ := h
  rw [parse?, Utf8.decode_encode]
  have hchars := parseChars?_of_object hcs
  rwa [← String.toList_ofList (l := cs)] at hchars

end Strongbox.Json
