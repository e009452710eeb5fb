import Mathlib.Data.Nat.Digits.Lemmas

/-! Byte strings: literals, C strings, little-endian words and the UTF-8
automaton. Nothing here is specific to one program. -/

namespace MyChat

abbrev Bytes := List UInt8

/-- The UTF-8 bytes of a source literal. -/
def lit (s : String) : Bytes := s.toList.flatMap String.utf8EncodeChar

theorem lit_inj {a b : String} : lit a = lit b ↔ a = b := by
  refine ⟨fun h => ?_, fun h => h ▸ rfl⟩
  have hbytes : ∀ s : String, (lit s).toByteArray = s.toByteArray := by
    intro s
    rw [lit, ← List.utf8Encode, String.utf8Encode_toList]
  exact String.toByteArray_inj.mp (by rw [← hbytes a, ← hbytes b, h])

theorem lit_append (a b : String) : lit (a ++ b) = lit a ++ lit b := by
  rw [lit, String.toList_append, List.flatMap_append]
  rfl

/-- What `s.c_str()` shows to a `%s`: the bytes before the first NUL. -/
def cStr (s : Bytes) : Bytes := s.takeWhile (· ≠ 0)

/-- Decimal text. -/
def dumpNat (n : Nat) : Bytes :=
  if n = 0 then [48] else (Nat.digits 10 n).reverse.map fun d => UInt8.ofNat (48 + d)

def dumpInt : Int → Bytes
  | .ofNat n => dumpNat n
  | .negSucc n => 0x2D :: dumpNat (n + 1)

def isDigit (b : UInt8) : Bool := 48 ≤ b && b ≤ 57

def digitsValue (ds : Bytes) : Nat := ds.foldl (fun n d => 10 * n + (d.toNat - 48)) 0

/-- What `strtol` skips before a number. -/
def isSpaceC (b : UInt8) : Bool := b = 0x20 || (0x09 ≤ b && b ≤ 0x0D)

/-- `std::stoi` of a text short enough not to overflow: leading space and a
sign, then the digits up to the first other byte. Without digits it throws. -/
def stoi (s : Bytes) : Option Int :=
  let t := s.dropWhile isSpaceC
  let signed := t.head? = some 0x2D ∨ t.head? = some 0x2B
  let ds := (if signed then t.tail else t).takeWhile isDigit
  if ds = [] then none
  else some (if t.head? = some 0x2D then -(digitsValue ds : Int) else digitsValue ds)

theorem cStr_eq_self {s : Bytes} (h : 0 ∉ s) : cStr s = s := by
  induction s with
  | nil => rfl
  | cons b s ih =>
    simp only [List.mem_cons, not_or] at h
    have hb : b ≠ 0 := fun he => h.1 he.symm
    rw [cStr, List.takeWhile_cons_of_pos (by simpa using hb), ← cStr, ih h.2]

/-! ## Decimal text -/

theorem dumpNat_isDigit (n : Nat) : ∀ b ∈ dumpNat n, isDigit b := by
  intro b hb
  unfold dumpNat at hb
  split at hb
  · simp only [List.mem_singleton] at hb; subst hb; rfl
  · obtain ⟨d, hd, rfl⟩ := List.mem_map.mp hb
    have hlt := Nat.digits_lt_base (by decide) (List.mem_reverse.mp hd)
    have hall : ∀ d < 10, isDigit (UInt8.ofNat (48 + d)) := by decide
    exact hall d hlt

theorem dumpNat_ne_nil (n : Nat) : dumpNat n ≠ [] := by
  unfold dumpNat
  split
  · simp
  · next h => simpa [Nat.digits_ne_nil_iff_ne_zero] using h

theorem digitsValue_dumpNat (n : Nat) : digitsValue (dumpNat n) = n := by
  unfold dumpNat digitsValue
  split
  · next h => subst h; rfl
  · rw [List.foldl_map, List.foldl_reverse]
    have hdig : ∀ ds : List Nat, (∀ d ∈ ds, d < 10) →
        ds.foldr (fun d n => 10 * n + ((UInt8.ofNat (48 + d)).toNat - 48)) 0 =
          Nat.ofDigits 10 ds := by
      intro ds
      induction ds with
      | nil => intro _; rfl
      | cons d ds ih =>
        intro h
        have hd := h d (by simp)
        have hall : ∀ d < 10, (UInt8.ofNat (48 + d)).toNat - 48 = d := by decide
        rw [List.foldr_cons, ih fun e he => h e (by simp [he]), hall d hd, Nat.ofDigits_cons]
        omega
    rw [hdig _ fun d hd => Nat.digits_lt_base (by decide) hd, Nat.ofDigits_digits]

theorem dumpNat_cons (n : Nat) : ∃ b t, dumpNat n = b :: t ∧ isDigit b := by
  have hd := dumpNat_isDigit n
  cases h : dumpNat n with
  | nil => exact absurd h (dumpNat_ne_nil n)
  | cons b t => exact ⟨b, t, rfl, hd b (by simp [h])⟩

/-- The digits of a number end where its text does. -/
theorem span_dumpNat (n : Nat) {r : Bytes} (hr : ∀ b ∈ r.head?, isDigit b = false) :
    (dumpNat n ++ r).takeWhile isDigit = dumpNat n ∧ (dumpNat n ++ r).dropWhile isDigit = r := by
  have hr' : r.takeWhile isDigit = [] ∧ r.dropWhile isDigit = r := by
    cases r with
    | nil => exact ⟨rfl, rfl⟩
    | cons b r => simp [hr b (by simp)]
  rw [List.takeWhile_append_of_pos (dumpNat_isDigit n),
    List.dropWhile_append_of_pos (dumpNat_isDigit n), hr'.1, hr'.2, List.append_nil]
  exact ⟨rfl, rfl⟩

theorem digitsValue_lt {ds : Bytes} (h : ∀ b ∈ ds, isDigit b) :
    digitsValue ds < 10 ^ ds.length := by
  have hfold : ∀ (ds : Bytes) (n : Nat), (∀ b ∈ ds, isDigit b) →
      ds.foldl (fun n d => 10 * n + (d.toNat - 48)) n < (n + 1) * 10 ^ ds.length := by
    intro ds
    induction ds with
    | nil => intro n _; simp
    | cons d ds ih =>
      intro n h
      have hd := h d (by simp)
      simp only [isDigit, Bool.and_eq_true, decide_eq_true_eq, UInt8.le_iff_toNat_le,
        UInt8.reduceToNat] at hd
      have hstep : 10 * n + (d.toNat - 48) + 1 ≤ (n + 1) * 10 := by omega
      refine (ih _ fun b hb => h b (by simp [hb])).trans_le ?_
      rw [List.length_cons, Nat.pow_succ', ← Nat.mul_assoc]
      exact Nat.mul_le_mul_right _ hstep
  simpa [digitsValue] using hfold ds 0 h

theorem dumpNat_length_le {n k : Nat} (hk : 0 < k) (h : n < 10 ^ k) : (dumpNat n).length ≤ k := by
  unfold dumpNat
  split
  · exact hk
  · rw [List.length_map, List.length_reverse]
    exact (Nat.digits_length_le_iff (by decide) n).mpr h

/-- A digit is neither space nor a sign. -/
theorem isDigit_not {b : UInt8} (h : isDigit b) : isSpaceC b = false ∧ b ≠ 0x2D ∧ b ≠ 0x2B := by
  simp only [isDigit, Bool.and_eq_true, decide_eq_true_eq, UInt8.le_iff_toNat_le,
    UInt8.reduceToNat] at h
  refine ⟨?_, ?_, ?_⟩
  · simp only [isSpaceC, Bool.or_eq_false_iff, decide_eq_false_iff_not, Bool.and_eq_false_iff,
      UInt8.le_iff_toNat_le, UInt8.reduceToNat, ← UInt8.toNat_inj]
    omega
  · rintro rfl
    simp at h
  · rintro rfl
    simp at h

/-- A text of digits only is read whole. -/
theorem stoi_digits {s : Bytes} (h : ∀ b ∈ s, isDigit b) (hne : s ≠ []) :
    stoi s = some (digitsValue s : Int) := by
  obtain ⟨b, t, rfl⟩ := List.exists_cons_of_ne_nil hne
  obtain ⟨hspace, hminus, hplus⟩ := isDigit_not (h b (by simp))
  have hdrop : (b :: t).dropWhile isSpaceC = b :: t := by
    rw [List.dropWhile_cons_of_neg (by simp [hspace])]
  have hall : (b :: t).takeWhile isDigit = b :: t := by
    rw [← List.append_nil (b :: t), List.takeWhile_append_of_pos h]
    rfl
  simp [stoi, hdrop, hall, hminus, hplus]

theorem stoi_dumpInt (n : Int) : stoi (dumpInt n) = some n := by
  cases n with
  | ofNat n =>
    change stoi (dumpNat n) = some (n : Int)
    rw [stoi_digits (dumpNat_isDigit n) (dumpNat_ne_nil n), digitsValue_dumpNat]
  | negSucc n =>
    have hdrop : (0x2D :: dumpNat (n + 1)).dropWhile isSpaceC = 0x2D :: dumpNat (n + 1) :=
      List.dropWhile_cons_of_neg (by decide)
    have hall : (dumpNat (n + 1)).takeWhile isDigit = dumpNat (n + 1) := by
      rw [← List.append_nil (dumpNat (n + 1)),
        List.takeWhile_append_of_pos (dumpNat_isDigit (n + 1))]
      rfl
    simp [dumpInt, stoi, hdrop, hall, dumpNat_ne_nil, digitsValue_dumpNat, Int.negSucc_eq]

/-! ## Little-endian 32-bit words -/

def encodeU32 (w : UInt32) : Bytes :=
  [w.toUInt8, (w >>> 8).toUInt8, (w >>> 16).toUInt8, (w >>> 24).toUInt8]

def decodeU32 : Bytes → UInt32
  | a :: b :: c :: d :: _ =>
      UInt32.ofNat (a.toNat + 256 * b.toNat + 65536 * c.toNat + 16777216 * d.toNat)
  | _ => 0

@[simp] theorem encodeU32_length (w : UInt32) : (encodeU32 w).length = 4 := rfl

theorem decodeU32_encodeU32 (w : UInt32) (rest : Bytes) :
    decodeU32 (encodeU32 w ++ rest) = w := by
  have hw : w.toNat < 2 ^ 32 := w.toNat_lt
  apply UInt32.toNat_inj.mp
  have h8 : (8 : UInt32).toNat % 32 = 8 := rfl
  have h16 : (16 : UInt32).toNat % 32 = 16 := rfl
  have h24 : (24 : UInt32).toNat % 32 = 24 := rfl
  simp only [encodeU32, List.cons_append, List.nil_append, decodeU32, UInt32.toNat_ofNat',
    UInt32.toNat_toUInt8, UInt32.toNat_shiftRight, Nat.shiftRight_eq_div_pow, h8, h16, h24]
  omega

/-! ## UTF-8 -/

/-- Where the decoder stands between bytes: how many continuation bytes are
owed, and the range the next one must lie in. -/
inductive Utf8State
  | start
  | tail (owed : Nat) (lo hi : UInt8)
  deriving DecidableEq, Repr

def utf8First (b : UInt8) : Option Utf8State :=
  if b < 0x80 then some .start
  else if b < 0xC2 then none
  else if b < 0xE0 then some (.tail 0 0x80 0xBF)
  else if b = 0xE0 then some (.tail 1 0xA0 0xBF)
  else if b = 0xED then some (.tail 1 0x80 0x9F)
  else if b < 0xF0 then some (.tail 1 0x80 0xBF)
  else if b = 0xF0 then some (.tail 2 0x90 0xBF)
  else if b < 0xF4 then some (.tail 2 0x80 0xBF)
  else if b = 0xF4 then some (.tail 2 0x80 0x8F)
  else none

def utf8Step : Utf8State → UInt8 → Option Utf8State
  | .start, b => utf8First b
  | .tail owed lo hi, b =>
      if lo ≤ b ∧ b ≤ hi then
        match owed with
        | 0 => some .start
        | n + 1 => some (.tail n 0x80 0xBF)
      else none

def utf8Run : Utf8State → Bytes → Option Utf8State
  | q, [] => some q
  | q, b :: s => (utf8Step q b).bind (utf8Run · s)

def validUtf8 (s : Bytes) : Bool := utf8Run .start s = some .start

theorem utf8Run_append (q : Utf8State) (a b : Bytes) :
    utf8Run q (a ++ b) = (utf8Run q a).bind (utf8Run · b) := by
  induction a generalizing q with
  | nil => rfl
  | cons x a ih =>
    simp only [List.cons_append, utf8Run]
    cases utf8Step q x with
    | none => rfl
    | some r => exact ih r

theorem validUtf8_append {a b : Bytes} (ha : validUtf8 a) (hb : validUtf8 b) :
    validUtf8 (a ++ b) := by
  simp only [validUtf8, decide_eq_true_eq] at *
  rw [utf8Run_append, ha]
  exact hb

theorem validUtf8_flatten {l : List Bytes} (h : ∀ s ∈ l, validUtf8 s) : validUtf8 l.flatten := by
  induction l with
  | nil => rfl
  | cons s l ih =>
    rw [List.flatten_cons]
    exact validUtf8_append (h s (by simp)) (ih fun t ht => h t (by simp [ht]))

theorem utf8First_ascii {b : UInt8} (h : b < 0x80) : utf8First b = some .start := by
  simp [utf8First, h]

theorem validUtf8_ascii {s : Bytes} (h : ∀ b ∈ s, b < 0x80) : validUtf8 s := by
  simp only [validUtf8, decide_eq_true_eq]
  induction s with
  | nil => rfl
  | cons b s ih =>
    rw [utf8Run, utf8Step, utf8First_ascii (h b (by simp))]
    exact ih fun c hc => h c (by simp [hc])

/-- The ranges of every owed continuation byte lie above ASCII. -/
def Utf8State.high : Utf8State → Bool
  | .start => true
  | .tail _ lo _ => 0x80 ≤ lo

theorem utf8Step_high {q r : Utf8State} {b : UInt8} (hq : q.high)
    (h : utf8Step q b = some r) : r.high := by
  cases q with
  | start =>
    simp only [utf8Step, utf8First] at h
    repeat' split at h
    all_goals cases h
    all_goals rfl
  | tail owed lo hi =>
    simp only [utf8Step] at h
    split at h
    · cases owed with
      | zero => cases h; rfl
      | succ n => cases h; rfl
    · cases h

/-- An ASCII byte is accepted between characters only, and stays there. -/
theorem utf8Step_ascii {q r : Utf8State} {b : UInt8} (hq : q.high) (hb : b < 0x80)
    (h : utf8Step q b = some r) : q = .start ∧ r = .start := by
  cases q with
  | start =>
    simp only [utf8Step, utf8First_ascii hb, Option.some.injEq] at h
    exact ⟨rfl, h.symm⟩
  | tail owed lo hi =>
    simp only [utf8Step] at h
    split at h
    · next hr =>
      have h1 : (0x80 : UInt8) ≤ b := UInt8.le_trans (of_decide_eq_true hq) hr.1
      exact absurd hb (UInt8.not_lt.mpr h1)
    · cases h

/-! ### Literals -/

theorem utf8First_ofNat {n : Nat} (h : n < 256) : utf8First (UInt8.ofNat n) =
    if n < 0x80 then some .start
    else if n < 0xC2 then none
    else if n < 0xE0 then some (.tail 0 0x80 0xBF)
    else if n = 0xE0 then some (.tail 1 0xA0 0xBF)
    else if n = 0xED then some (.tail 1 0x80 0x9F)
    else if n < 0xF0 then some (.tail 1 0x80 0xBF)
    else if n = 0xF0 then some (.tail 2 0x90 0xBF)
    else if n < 0xF4 then some (.tail 2 0x80 0xBF)
    else if n = 0xF4 then some (.tail 2 0x80 0x8F)
    else none := by
  have hn : (UInt8.ofNat n).toNat = n := by rw [UInt8.toNat_ofNat']; omega
  simp only [utf8First, UInt8.lt_iff_toNat_lt, ← UInt8.toNat_inj, hn, UInt8.reduceToNat]

theorem utf8Run_tail {owed n : Nat} {lo hi : UInt8} (hlo : lo.toNat ≤ n) (hhi : n ≤ hi.toNat)
    (rest : Bytes) : utf8Run (.tail owed lo hi) (UInt8.ofNat n :: rest) =
      utf8Run (match owed with | 0 => .start | m + 1 => .tail m 0x80 0xBF) rest := by
  have hlt := hi.toNat_lt
  have hn : (UInt8.ofNat n).toNat = n := by rw [UInt8.toNat_ofNat']; omega
  have hmem : lo ≤ UInt8.ofNat n ∧ UInt8.ofNat n ≤ hi := by
    rw [UInt8.le_iff_toNat_le, UInt8.le_iff_toNat_le, hn]
    exact ⟨hlo, hhi⟩
  cases owed <;> simp only [utf8Run, utf8Step, if_pos hmem, Option.bind_some]

theorem utf8Run_first {n : Nat} {q : Utf8State} (h : utf8First (UInt8.ofNat n) = some q)
    (rest : Bytes) : utf8Run .start (UInt8.ofNat n :: rest) = utf8Run q rest := by
  rw [utf8Run, utf8Step, h, Option.bind_some]

/-- One case for each length of the encoding. -/
theorem utf8Run_encodeChar (c : Char) : utf8Run .start (String.utf8EncodeChar c) = some .start := by
  have hvalid := c.valid
  simp only [UInt32.isValidChar, Nat.isValidChar] at hvalid
  unfold String.utf8EncodeChar
  simp only
  generalize c.val.toNat = v at hvalid
  split
  · rw [utf8Run_first (q := .start)]
    · rfl
    · rw [utf8First_ofNat (by omega), if_pos (by omega)]
  split
  · rw [utf8Run_first (q := .tail 0 0x80 0xBF), utf8Run_tail]
    · rfl
    · simp only [UInt8.reduceToNat]; omega
    · simp only [UInt8.reduceToNat]; omega
    · rw [utf8First_ofNat (by omega), if_neg (by omega), if_neg (by omega), if_pos (by omega)]
  split
  · have h2 : ∃ lo hi : UInt8,
        utf8First (UInt8.ofNat (v / 4096 % 16 + 224)) = some (.tail 1 lo hi) ∧
        lo.toNat ≤ v / 64 % 64 + 128 ∧ v / 64 % 64 + 128 ≤ hi.toNat := by
      rw [utf8First_ofNat (by omega), if_neg (by omega), if_neg (by omega), if_neg (by omega)]
      split
      · exact ⟨_, _, rfl, by simp only [UInt8.reduceToNat]; omega,
          by simp only [UInt8.reduceToNat]; omega⟩
      split
      · exact ⟨_, _, rfl, by simp only [UInt8.reduceToNat]; omega,
          by simp only [UInt8.reduceToNat]; omega⟩
      rw [if_pos (by omega)]
      exact ⟨_, _, rfl, by simp only [UInt8.reduceToNat]; omega,
          by simp only [UInt8.reduceToNat]; omega⟩
    obtain ⟨lo, hi, hfirst, hlo, hhi⟩ := h2
    rw [utf8Run_first hfirst, utf8Run_tail hlo hhi, utf8Run_tail]
    · rfl
    · simp only [UInt8.reduceToNat]; omega
    · simp only [UInt8.reduceToNat]; omega
  · have h2 : ∃ lo hi : UInt8,
        utf8First (UInt8.ofNat (v / 262144 % 8 + 240)) = some (.tail 2 lo hi) ∧
        lo.toNat ≤ v / 4096 % 64 + 128 ∧ v / 4096 % 64 + 128 ≤ hi.toNat := by
      rw [utf8First_ofNat (by omega), if_neg (by omega), if_neg (by omega), if_neg (by omega),
        if_neg (by omega), if_neg (by omega), if_neg (by omega)]
      split
      · exact ⟨_, _, rfl, by simp only [UInt8.reduceToNat]; omega,
          by simp only [UInt8.reduceToNat]; omega⟩
      split
      · exact ⟨_, _, rfl, by simp only [UInt8.reduceToNat]; omega,
          by simp only [UInt8.reduceToNat]; omega⟩
      rw [if_pos (by omega)]
      exact ⟨_, _, rfl, by simp only [UInt8.reduceToNat]; omega,
          by simp only [UInt8.reduceToNat]; omega⟩
    obtain ⟨lo, hi, hfirst, hlo, hhi⟩ := h2
    rw [utf8Run_first hfirst, utf8Run_tail hlo hhi, utf8Run_tail, utf8Run_tail]
    · rfl
    all_goals simp only [UInt8.reduceToNat]; omega

@[simp] theorem validUtf8_lit (s : String) : validUtf8 (lit s) := by
  rw [lit]
  induction s.toList with
  | nil => rfl
  | cons c cs ih =>
    rw [List.flatMap_cons]
    refine validUtf8_append ?_ ih
    simpa [validUtf8] using utf8Run_encodeChar c

end MyChat
