import MyChat.Lib.Bytes

/-! Console input as an `istream`: what is left of it and the state bits. A read
that fails sets a bit, and with a bit set nothing is read any more. -/

namespace MyChat

structure IStream where
  rest : Bytes
  eof : Bool := false
  fail : Bool := false
  deriving DecidableEq, Repr

def isSign (b : UInt8) : Bool := b = 0x2D || b = 0x2B

/-- What a formatted read of a number does not leave where it is. -/
def startsNumber (s : Bytes) : Bool :=
  s.head?.any fun b => isSpaceC b || isSign b || isDigit b

/-- The number closest to `n`. -/
def clampInt32 (n : Int) : Int32 := Int32.ofInt (max (-2 ^ 31) (min (2 ^ 31 - 1) n))

namespace IStream

def good (s : IStream) : Bool := !s.eof && !s.fail

/-- A read of a stream that is not good. -/
def refuse (s : IStream) : IStream := { s with fail := true }

/-- `in.get()`. -/
def get (s : IStream) : Option UInt8 × IStream :=
  if s.good then
    match s.rest with
    | [] => (none, { rest := [], eof := true, fail := true })
    | b :: rest => (some b, { rest := rest })
  else (none, s.refuse)

/-- `in >> n` for an `int` that holds `v`. What is no number stores 0, a number
out of range the bound next to it. -/
def readInt (v : Int32) (s : IStream) : Int32 × IStream :=
  if s.good then
    match s.rest.dropWhile isSpaceC with
    | [] => (v, { rest := [], eof := true, fail := true })
    | b :: t =>
        let text := if isSign b then t else b :: t
        let ds := text.takeWhile isDigit
        let rest := text.dropWhile isDigit
        let n : Int := if b = 0x2D then -(digitsValue ds : Int) else digitsValue ds
        let ok := ds ≠ [] ∧ -2 ^ 31 ≤ n ∧ n < 2 ^ 31
        (clampInt32 n, { rest := rest, eof := rest = [], fail := ¬ ok })
  else (v, s.refuse)

/-- `in.getline(buffer, n)`, as the text in front of the NUL that it stores. -/
def getline (n : Nat) (s : IStream) : Bytes × IStream :=
  if s.good then
    let line := s.rest.takeWhile (· ≠ 0x0A)
    if line.length < n then
      match s.rest.dropWhile (· ≠ 0x0A) with
      | [] => (line, { rest := [], eof := true, fail := line = [] })
      | _ :: rest => (line, { rest := rest })
    else (s.rest.take (n - 1), { rest := s.rest.drop (n - 1), fail := true })
  else ([], s.refuse)

variable {s : IStream}

/-! ## A stream that is not good -/

@[simp] theorem good_refuse : s.refuse.good = false := by simp [refuse, good]

@[simp] theorem rest_refuse : s.refuse.rest = s.rest := rfl

theorem get_refused (h : s.good = false) : s.get = (none, s.refuse) := by simp [get, h]

theorem readInt_refused (h : s.good = false) (v : Int32) : s.readInt v = (v, s.refuse) := by
  simp [readInt, h]

theorem getline_refused (h : s.good = false) (n : Nat) : s.getline n = ([], s.refuse) := by
  simp [getline, h]

/-! ## What a read takes -/

theorem get_le (s : IStream) : s.get.2.rest.length ≤ s.rest.length := by
  unfold get
  split
  · split
    · exact Nat.zero_le _
    · next h => rw [h]; exact Nat.le_succ _
  · exact le_rfl

theorem readInt_le (v : Int32) (s : IStream) : (s.readInt v).2.rest.length ≤ s.rest.length := by
  unfold readInt
  split
  · have hdrop := (s.rest.dropWhile_sublist isSpaceC).length_le
    split
    · exact Nat.zero_le _
    · next b t h =>
      rw [h] at hdrop
      simp only
      refine (List.dropWhile_sublist _).length_le.trans ?_
      split
      · exact (Nat.le_succ _).trans hdrop
      · exact hdrop
  · exact le_rfl

theorem getline_le (n : Nat) (s : IStream) : (s.getline n).2.rest.length ≤ s.rest.length := by
  unfold getline
  split
  · simp only
    split
    · have hdrop := (s.rest.dropWhile_sublist (· ≠ 0x0A)).length_le
      split
      · exact Nat.zero_le _
      · next h => rw [h] at hdrop; exact (Nat.le_succ _).trans hdrop
    · exact (List.drop_sublist _ _).length_le
  · exact le_rfl

/-- Space, a sign or a digit in front of the stream is read. -/
theorem readInt_lt (h : s.good) (hs : startsNumber s.rest) (v : Int32) :
    (s.readInt v).2.rest.length < s.rest.length := by
  unfold readInt
  rw [if_pos h]
  cases hr : s.rest with
  | nil => rw [hr] at hs; cases hs
  | cons c r =>
    rw [hr] at hs
    cases hc : isSpaceC c with
    | true =>
      have hdrop := (r.dropWhile_sublist isSpaceC).length_le
      rw [List.dropWhile_cons_of_pos hc]
      split
      · exact Nat.succ_pos _
      · next b t ht =>
        rw [ht] at hdrop
        refine Nat.lt_succ_of_le ((List.dropWhile_sublist _).length_le.trans ?_)
        split
        · exact (Nat.le_succ _).trans hdrop
        · exact hdrop
    | false =>
      rw [List.dropWhile_cons_of_neg (by simp [hc])]
      simp only
      cases hsign : isSign c with
      | true => exact Nat.lt_succ_of_le (List.dropWhile_sublist _).length_le
      | false =>
        have hdigit : isDigit c := by simpa [startsNumber, hc, hsign] using hs
        simp only [Bool.false_eq_true, ↓reduceIte, List.dropWhile_cons_of_pos hdigit]
        exact Nat.lt_succ_of_le (List.dropWhile_sublist _).length_le

/-- Anything else stays, and nothing is read behind it. -/
theorem readInt_stuck (h : ¬ (s.good ∧ startsNumber s.rest)) :
    (s.readInt 0).1 = 0 ∧ (s.readInt 0).2.rest = s.rest ∧ (s.readInt 0).2.good = false := by
  cases hg : s.good with
  | false => rw [readInt_refused hg]; simp
  | true =>
    have hs : startsNumber s.rest = false := by simpa [hg] using h
    unfold readInt
    rw [if_pos hg]
    cases hr : s.rest with
    | nil => simp [good]
    | cons c r =>
      simp only [hr, startsNumber, List.head?_cons, Option.any_some, Bool.or_eq_false_iff] at hs
      obtain ⟨⟨hspace, hsign⟩, hdigit⟩ := hs
      have hminus : c ≠ 0x2D := by
        rintro rfl
        cases hsign
      rw [List.dropWhile_cons_of_neg (by simp [hspace])]
      simp [hsign, hdigit, hminus, digitsValue, clampInt32, good]

/-- A line takes a character wherever there is one. -/
theorem getline_lt {n : Nat} (hn : 1 < n) (h : s.good) (hs : s.rest ≠ []) :
    (s.getline n).2.rest.length < s.rest.length := by
  obtain ⟨c, r, hr⟩ := List.exists_cons_of_ne_nil hs
  unfold getline
  rw [if_pos h]
  simp only
  split
  · split
    · rw [hr]; exact Nat.succ_pos _
    · next b t ht =>
      have hdrop := (s.rest.dropWhile_sublist (· ≠ 0x0A)).length_le
      rw [ht] at hdrop
      exact hdrop
  · rw [List.length_drop, hr, List.length_cons]
    omega

theorem getline_stuck (h : ¬ (s.good ∧ s.rest ≠ [])) (n : Nat) :
    (s.getline n).1 = [] ∧ (s.getline n).2.rest = s.rest ∧ (s.getline n).2.good = false := by
  cases hg : s.good with
  | false => rw [getline_refused hg]; simp
  | true =>
    have hr : s.rest = [] := by simpa [hg] using h
    unfold getline
    rw [if_pos hg, hr]
    cases n with
    | zero => simp [good]
    | succ n => simp [good]

/-! ## Lines -/

/-- A line that fits is read whole, whether a newline or the end is behind it. -/
theorem getline_line {line : Bytes} {n : Nat} (h : s.good) (hline : 0x0A ∉ line)
    (hn : line.length < n) (hrest : s.rest = line ∨ ∃ more, s.rest = line ++ 0x0A :: more) :
    (s.getline n).1 = line := by
  have hall : ∀ b ∈ line, decide (b ≠ 0x0A) = true := by
    intro b hb
    simp only [ne_eq, decide_not, Bool.not_eq_eq_eq_not, Bool.not_true, decide_eq_false_iff_not]
    rintro rfl
    exact hline hb
  have htake : s.rest.takeWhile (· ≠ 0x0A) = line := by
    rcases hrest with hr | ⟨more, hr⟩
    · rw [hr, ← List.append_nil line, List.takeWhile_append_of_pos hall]
      rfl
    · rw [hr, List.takeWhile_append_of_pos hall]
      simp
  unfold getline
  rw [if_pos h]
  simp only [htake, if_pos hn]
  split <;> rfl

/-- A line that fits is taken together with its newline. -/
theorem getline_newline {line : Bytes} {n : Nat} (hline : 0x0A ∉ line) (hn : line.length < n)
    (more : Bytes) :
    getline n { rest := line ++ 0x0A :: more } = (line, { rest := more }) := by
  have hall : ∀ b ∈ line, decide (b ≠ 0x0A) = true := fun b hb =>
    decide_eq_true fun he => hline (he ▸ hb)
  have htake : (line ++ 0x0A :: more).takeWhile (· ≠ 0x0A) = line := by
    rw [List.takeWhile_append_of_pos hall]
    simp
  have hdrop : (line ++ 0x0A :: more).dropWhile (· ≠ 0x0A) = 0x0A :: more := by
    rw [List.dropWhile_append_of_pos hall]
    simp
  have hgood : ({ rest := line ++ 0x0A :: more } : IStream).good := rfl
  rw [getline, if_pos hgood]
  simp only [htake, if_pos hn, hdrop]

theorem get_cons (b : UInt8) (more : Bytes) :
    get { rest := b :: more } = (some b, { rest := more }) := rfl

/-- A number is read up to the newline, which stays. -/
theorem readInt_newline {blank : Bytes} (hblank : ∀ b ∈ blank, isSpaceC b) {m : Nat}
    (hm : m < 2 ^ 31) (v : Int32) (more : Bytes) :
    readInt v { rest := blank ++ (dumpNat m ++ 0x0A :: more) } =
      (Int32.ofNat m, { rest := 0x0A :: more }) := by
  obtain ⟨b, t, hdigits, hb⟩ := dumpNat_cons m
  obtain ⟨hspace, hminus, hplus⟩ := isDigit_not hb
  have hsign : isSign b = false := by simp [isSign, hminus, hplus]
  have hskip : (blank ++ (dumpNat m ++ 0x0A :: more)).dropWhile isSpaceC =
      b :: (t ++ 0x0A :: more) := by
    rw [List.dropWhile_append_of_pos hblank, hdigits, List.cons_append,
      List.dropWhile_cons_of_neg (by simp [hspace])]
  have hnewline : ∀ c ∈ (0x0A :: more).head?, isDigit c = false := by
    rintro c ⟨⟩
    rfl
  obtain ⟨htake, hdrop⟩ := span_dumpNat m hnewline
  rw [hdigits, List.cons_append] at htake hdrop
  have hvalue : clampInt32 (m : Int) = Int32.ofNat m := by
    have hclamp : max (-2 ^ 31) (min (2 ^ 31 - 1) (m : Int)) = m := by omega
    rw [clampInt32, hclamp]
    rfl
  have hgood : ({ rest := blank ++ (dumpNat m ++ 0x0A :: more) } : IStream).good := rfl
  rw [readInt, if_pos hgood]
  simp only [hskip, hsign, if_neg hminus, Bool.false_eq_true, ↓reduceIte, htake, hdrop, ← hdigits,
    digitsValue_dumpNat, hvalue]
  rw [hdigits]
  simp only [ne_eq, reduceCtorEq, not_false_eq_true, true_and, decide_false]
  rw [decide_eq_false (not_not.mpr ⟨by omega, by omega⟩)]

end IStream

end MyChat
