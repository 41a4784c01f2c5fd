import Strongbox.Proofs.Password

/-! # Requests to one generator

A source makes its choices one after the other, whoever asks for them. Requests to one generator
take them in turn: each takes as many as characters are wanted, and one that is refused takes
none. -/

namespace Strongbox

namespace ChoiceSource

variable {σ : Type} [ChoiceSource σ] {bound : Nat} {h : 0 < bound}

/-- The source after so many choices. -/
def after (h : 0 < bound) : Nat → σ → σ
  | 0, s => s
  | n + 1, s => after h n (choose bound h s).2

/-- The choice that comes after so many others. -/
def pick (h : 0 < bound) (s : σ) (place : Nat) : Fin bound :=
  (choose bound h (after h place s)).1

theorem after_add (a b : Nat) (s : σ) : after h (a + b) s = after h b (after h a s) := by
  induction a generalizing s with
  | zero => rw [Nat.zero_add, after]
  | succ a ih => rw [Nat.succ_add, after, ih, after]

theorem pick_after (a : Nat) (s : σ) (place : Nat) :
    pick h (after h a s) place = pick h s (a + place) := by
  rw [pick, ← after_add, pick]

end ChoiceSource

namespace Password

open ChoiceSource

variable {σ : Type} [ChoiceSource σ] {alphabet : List Char} {h : 0 < alphabet.length}

/-! ## The choices of a source -/

/-- The characters that a source chooses from a place in its choices on. -/
def segment (h : 0 < alphabet.length) (s : σ) (start size : Nat) : List Char :=
  (List.range size).map fun i => alphabet.get (pick h s (start + i))

theorem length_segment (s : σ) (start size : Nat) : (segment h s start size).length = size := by
  simp [segment]

theorem mem_of_mem_segment {s : σ} {start size : Nat} {c : Char}
    (hc : c ∈ segment h s start size) : c ∈ alphabet := by
  obtain ⟨i, -, rfl⟩ := List.mem_map.mp hc
  exact List.get_mem _ _

theorem segment_after (a : Nat) (s : σ) (start size : Nat) :
    segment h (after h a s) start size = segment h s (a + start) size := by
  simp only [segment, pick_after, Nat.add_assoc]

/-- Segments that follow on each other are one segment. -/
theorem segment_append (s : σ) (start a b : Nat) :
    segment h s start a ++ segment h s (start + a) b = segment h s start (a + b) := by
  simp only [segment, List.range_add, List.map_append, List.map_map, Function.comp_def,
    Nat.add_assoc]

theorem choices_eq (n : Nat) (s : σ) :
    choices alphabet h n s = (segment h s 0 n, after h n s) := by
  induction n generalizing s with
  | zero => rfl
  | succ n ih =>
      have hfirst : segment h s 0 1 = [alphabet.get (choose alphabet.length h s).1] := rfl
      have hrest : segment h (choose alphabet.length h s).2 0 n = segment h s (0 + 1) n :=
        segment_after 1 s 0 n
      have hstep : choices alphabet h (n + 1) s =
          (alphabet.get (choose alphabet.length h s).1 ::
              (choices alphabet h n (choose alphabet.length h s).2).1,
            (choices alphabet h n (choose alphabet.length h s).2).2) := rfl
      rw [hstep, ih, Nat.add_comm n 1, ← segment_append, hfirst, ← hrest, Nat.add_comm 1 n]
      rfl

/-! ## Single requests -/

theorem generate_of_neg {n : Int} (hn : n < 0) (s : σ) :
    generate alphabet n s = (.error (.negativeLength n), s) :=
  if_pos hn

theorem generate_of_nonneg (h : 0 < alphabet.length) {n : Int} (hn : 0 ≤ n) (s : σ) :
    generate alphabet n s =
      (.ok (String.ofList (segment h s 0 n.toNat)), after h n.toNat s) := by
  rw [generate, if_neg (by omega), dif_pos h, choices_eq]

/-- The choices that requests take together. -/
def demand : List Int → Nat
  | [] => 0
  | n :: rest => n.toNat + demand rest

theorem demand_append (requests more : List Int) :
    demand (requests ++ more) = demand requests + demand more := by
  induction requests with
  | nil => simp [demand]
  | cons n rest ih => simp only [List.cons_append, demand, ih, Nat.add_assoc]

/-- What a request is answered with when so many choices have been made before. -/
def answer (h : 0 < alphabet.length) (s : σ) (place : Nat) (n : Int) : Except Misuse String :=
  if n < 0 then .error (.negativeLength n)
  else .ok (String.ofList (segment h s place n.toNat))

/-- A request takes its choices, and the source is left where they end. -/
theorem generate_eq (h : 0 < alphabet.length) (n : Int) (s : σ) :
    generate alphabet n s = (answer h s 0 n, after h n.toNat s) := by
  by_cases hn : n < 0
  · have hnone : n.toNat = 0 := by omega
    rw [generate_of_neg hn, answer, if_pos hn, hnone, after]
  · rw [generate_of_nonneg h (by omega), answer, if_neg hn]

/-! ## Runs of requests -/

theorem answer_after (a : Nat) (s : σ) (place : Nat) (n : Int) :
    answer h (after h a s) place n = answer h s (a + place) n := by
  simp only [answer, segment_after]

/-- What requests are answered with, each at the place where the one before has stopped. -/
def answers (h : 0 < alphabet.length) (s : σ) : Nat → List Int → List (Except Misuse String)
  | _, [] => []
  | place, n :: rest => answer h s place n :: answers h s (place + n.toNat) rest

theorem answers_after (a : Nat) (s : σ) (place : Nat) (requests : List Int) :
    answers h (after h a s) place requests = answers h s (a + place) requests := by
  induction requests generalizing place with
  | nil => rfl
  | cons n rest ih => rw [answers, answers, answer_after, ih, Nat.add_assoc]

/-- A run depends on the source it starts from by its choices alone. -/
theorem generateAll_eq (h : 0 < alphabet.length) (requests : List Int) (s : σ) :
    generateAll alphabet requests s = (answers h s 0 requests, after h (demand requests) s) := by
  induction requests generalizing s with
  | nil => rfl
  | cons n rest ih =>
      have hstep : generateAll alphabet (n :: rest) s =
          ((generate alphabet n s).1 :: (generateAll alphabet rest (generate alphabet n s).2).1,
            (generateAll alphabet rest (generate alphabet n s).2).2) := rfl
      rw [hstep, generate_eq h, ih, answers_after, ← after_add, answers, demand, Nat.add_comm 0]

theorem length_answers (s : σ) (place : Nat) (requests : List Int) :
    (answers h s place requests).length = requests.length := by
  induction requests generalizing place with
  | nil => rfl
  | cons n rest ih => rw [answers, List.length_cons, ih, List.length_cons]

theorem answers_append (s : σ) (place : Nat) (requests more : List Int) :
    answers h s place (requests ++ more) =
      answers h s place requests ++ answers h s (place + demand requests) more := by
  induction requests generalizing place with
  | nil => rfl
  | cons n rest ih => simp only [List.cons_append, answers, ih, demand, Nat.add_assoc]

/-- The characters of the passwords among results, one after the other. -/
def characters (results : List (Except Misuse String)) : List Char :=
  results.flatMap fun
    | .ok p => p.toList
    | .error _ => []

/-- No choice is lost between two passwords, and none is used twice. -/
theorem characters_answers (s : σ) (place : Nat) (requests : List Int) :
    characters (answers h s place requests) = segment h s place (demand requests) := by
  induction requests generalizing place with
  | nil => rfl
  | cons n rest ih =>
      rw [answers, characters, List.flatMap_cons, ← characters, ih, demand, ← segment_append]
      by_cases hn : n < 0
      · have hnone : n.toNat = 0 := by omega
        simp [answer, hn, hnone, segment]
      · simp [answer, hn]

theorem isOk_answer (s : σ) (place : Nat) (n : Int) :
    (answer h s place n).isOk = decide (0 ≤ n) := by
  by_cases hn : n < 0
  · rw [answer, if_pos hn, decide_eq_false (Int.not_le.mpr hn)]
    rfl
  · rw [answer, if_neg hn, decide_eq_true (Int.not_lt.mp hn)]
    rfl

/-- The results that are passwords are those of the requests that are not refused. -/
theorem filter_answers (s : σ) (place : Nat) (requests : List Int) :
    (answers h s place requests).filter Except.isOk =
      answers h s place (requests.filter (0 ≤ ·)) := by
  induction requests generalizing place with
  | nil => rfl
  | cons n rest ih =>
      rw [answers, List.filter_cons, isOk_answer, List.filter_cons, ih]
      split
      · rw [answers]
      · have hnone : n.toNat = 0 := by simp_all; omega
        rw [hnone, Nat.add_zero]

theorem demand_filter (requests : List Int) :
    demand (requests.filter (0 ≤ ·)) = demand requests := by
  induction requests with
  | nil => rfl
  | cons n rest ih =>
      by_cases hn : n < 0
      · have hnone : n.toNat = 0 := by omega
        simp [demand, ih, hnone, Int.not_le.mpr hn]
      · simp [demand, ih, Int.not_lt.mp hn]

/-- How a request is answered when a source has made so many choices, and how many it has made
then. -/
inductive Answered (h : 0 < alphabet.length) (s : σ) (place : Nat) :
    Int → Except Misuse String → Nat → Prop
  | refused {n : Int} (hn : n < 0) : Answered h s place n (.error (.negativeLength n)) place
  | granted {n : Nat} {p : String} (length : p.length = n) (letters : ∀ c ∈ p.toList, c ∈ alphabet)
      (chosen : p.toList = segment h s place n) : Answered h s place n (.ok p) (place + n)

theorem answered_answer (s : σ) (place : Nat) (n : Int) :
    Answered h s place n (answer h s place n) (place + n.toNat) := by
  by_cases hn : n < 0
  · have hnone : n.toNat = 0 := by omega
    rw [answer, if_pos hn, hnone]
    exact .refused hn
  · obtain ⟨m, rfl⟩ := Int.eq_ofNat_of_zero_le (Int.not_lt.mp hn)
    rw [answer, if_neg hn, Int.toNat_natCast]
    refine .granted ?_ ?_ ?_
    · rw [String.length_ofList, length_segment]
    · intro c hc
      rw [String.toList_ofList] at hc
      exact mem_of_mem_segment hc
    · rw [String.toList_ofList]

/-- Whatever the source, requests are answered in turn with its choices in their order. A negative
length is refused and takes none. So all passwords together are the first choices of the source, a
password may be asked for in two parts, and requests that are refused may as well not be made. -/
theorem generateAll_in_order (h : 0 < alphabet.length) (requests : List Int) (s : σ) :
    (∃ results, generateAll alphabet requests s = (results, after h (demand requests) s) ∧
      results.length = requests.length ∧
      (∀ front n rest, requests = front ++ n :: rest →
        ∃ result, results[front.length]? = some result ∧
          Answered h s (demand front) n result (demand (front ++ [n]))) ∧
      characters results = segment h s 0 (demand requests) ∧
      generateAll alphabet (requests.filter (0 ≤ ·)) s =
        (results.filter Except.isOk, after h (demand requests) s)) ∧
    ∀ a b : Nat, ∃ p q,
      generateAll alphabet [(a : Int), b] s = ([.ok p, .ok q], after h (a + b) s) ∧
      generate alphabet (a + b : Nat) s = (.ok (p ++ q), after h (a + b) s) := by
  refine ⟨⟨_, generateAll_eq h requests s, length_answers s 0 requests, ?_,
    characters_answers s 0 requests, ?_⟩, ?_⟩
  · rintro front n rest rfl
    refine ⟨answer h s (demand front) n, ?_, ?_⟩
    · rw [answers_append, List.getElem?_append_right (Nat.le_of_eq (length_answers s 0 front)),
        length_answers, Nat.sub_self, answers, Nat.zero_add]
      rfl
    · rw [demand_append, demand, demand, Nat.add_zero]
      exact answered_answer s (demand front) n
  · rw [generateAll_eq h, filter_answers, demand_filter]
  · intro a b
    refine ⟨String.ofList (segment h s 0 a), String.ofList (segment h s a b), ?_, ?_⟩
    · simp [generateAll_eq h, answers, answer, demand]
    · rw [generate_eq h, answer, if_neg (by omega), Int.toNat_natCast, ← segment_append,
        Nat.zero_add, String.ofList_append]

/-- Three letters, a scripted source that goes round, and a refused request in between; and the
same requests to a seeded twister. -/
theorem generateAll_in_order_euro :
    0 < "ab€".toList.length ∧
      (∃ results,
        generateAll "ab€".toList [2, -1, 0, 3] (⟨[5, -1, 4], 0⟩ : ScriptedChoices) =
            (results, ⟨[5, -1, 4], 5⟩) ∧
          results[1]? = some (.error (.negativeLength (-1))) ∧
          characters results = "€€b€€".toList) ∧
      ∃ results source,
        generateAll "ab€".toList [2, -1, 0, 3] (Twister.ofSeed 7) = (results, source) ∧
          generateAll "ab€".toList [2, 0, 3] (Twister.ofSeed 7) =
            (results.filter Except.isOk, source) := by
  have h : 0 < "ab€".toList.length := by decide
  have hchosen : segment (by decide : 0 < "ab€".toList.length) (⟨[5, -1, 4], 0⟩ : ScriptedChoices) 0
      (demand [2, -1, 0, 3]) = "€€b€€".toList := by decide
  refine ⟨h, ?_, ?_⟩
  · obtain ⟨⟨results, hrun, -, hanswered, hcharacters, -⟩, -⟩ :=
      generateAll_in_order h [2, -1, 0, 3] (⟨[5, -1, 4], 0⟩ : ScriptedChoices)
    obtain ⟨result, hresult, hrefused⟩ := hanswered [2] (-1) [0, 3] rfl
    refine ⟨results, hrun, ?_, hcharacters.trans hchosen⟩
    cases hrefused with
    | refused => exact hresult
  · obtain ⟨⟨results, hrun, -, -, -, hfiltered⟩, -⟩ :=
      generateAll_in_order h [2, -1, 0, 3] (Twister.ofSeed 7)
    exact ⟨results, _, hrun, hfiltered⟩

end Password

end Strongbox
