import Mathlib.Data.List.TakeWhile
import MyChat.Lib.Bytes

/-! The text of an INSERT statement as MySQL reads it in its default mode: a
row of integers and string literals. A quote ends a literal, a doubled quote
stands for one, and a backslash escapes the character behind it. -/

namespace MyChat.SqlText

def quote : UInt8 := 0x27
def backslash : UInt8 := 0x5C

/-- What a backslash and the character behind it denote. Only the two pattern
characters keep their backslash. -/
def escaped (c : UInt8) : Bytes :=
  if c = 0x30 then [0x00]
  else if c = 0x62 then [0x08]
  else if c = 0x6E then [0x0A]
  else if c = 0x72 then [0x0D]
  else if c = 0x74 then [0x09]
  else if c = 0x5A then [0x1A]
  else if c = 0x25 ∨ c = 0x5F then [backslash, c]
  else [c]

/-- Behind the opening quote: the text denoted and what follows the closing
quote. -/
def literal : Bytes → Option (Bytes × Bytes)
  | [] => none
  | [c] => if c = quote then some ([], []) else none
  | c :: d :: s =>
      if c = quote then
        if d = quote then (literal s).map fun p => (quote :: p.1, p.2) else some ([], d :: s)
      else if c = backslash then (literal s).map fun p => (escaped d ++ p.1, p.2)
      else (literal (d :: s)).map fun p => (c :: p.1, p.2)

/-- Texts that stand for themselves between quotes. -/
def plain : Bytes → Bool
  | [] => true
  | [c] => c ≠ quote && c ≠ backslash
  | c :: d :: s =>
      if c = quote then false
      else if c = backslash then (d = 0x25 || d = 0x5F) && plain s
      else plain (d :: s)

/-- A column's value. -/
inductive Value
  | int (n : Int)
  | str (s : Bytes)
  deriving DecidableEq, Repr

def natural (s : Bytes) : Option (Nat × Bytes) :=
  if s.takeWhile isDigit = [] then none
  else some (digitsValue (s.takeWhile isDigit), s.dropWhile isDigit)

def valueAt : Bytes → Option (Value × Bytes)
  | [] => none
  | c :: s =>
      if c = quote then (literal s).map fun p => (.str p.1, p.2)
      else if c = 0x2D then (natural s).map fun p => (.int (-(p.1 : Int)), p.2)
      else (natural (c :: s)).map fun p => (.int p.1, p.2)

/-- The next value, behind white space. -/
def value (s : Bytes) : Option (Value × Bytes) := valueAt (s.dropWhile isSpaceC)

/-- The rest behind white space and the character `c`. -/
def behind (c : UInt8) (s : Bytes) : Option Bytes :=
  match s.dropWhile isSpaceC with
  | [] => none
  | d :: r => if d = c then some r else none

/-- As many values as there are columns, with commas between them. -/
def columns : Nat → Bytes → Option (List Value × Bytes)
  | 0, _ => none
  | 1, s => (value s).map fun p => ([p.1], p.2)
  | n + 2, s => (value s).bind fun p => (behind 0x2C p.2).bind fun r =>
      (columns (n + 1) r).map fun q => (p.1 :: q.1, q.2)

/-- The statement `head` with a row for `n` columns, its closing bracket, and
nothing behind it. -/
def insertRow (head : Bytes) (n : Nat) (sql : Bytes) : Option (List Value) :=
  if sql.take head.length = head then
    (columns n (sql.drop head.length)).bind fun p => (behind 0x29 p.2).bind fun r =>
      if r.dropWhile isSpaceC = [] then some p.1 else none
  else none

/-! ## Writing a row -/

def valueText : Value → Bytes
  | .int n => dumpInt n
  | .str s => quote :: (s ++ [quote])

def rowText : List Value → Bytes
  | [] => []
  | [v] => valueText v
  | v :: w :: vs => valueText v ++ (0x2C :: 0x20 :: rowText (w :: vs))

/-- A value that is read back as it was written. -/
def Value.plain : Value → Bool
  | .int _ => true
  | .str s => SqlText.plain s

/-! ## Literals -/

theorem literal_plain {s : Bytes} (h : plain s) {rest : Bytes} (hr : rest.head? ≠ some quote) :
    literal (s ++ quote :: rest) = some (s, rest) := by
  induction s using plain.induct with
  | case1 =>
    cases rest with
    | nil => rfl
    | cons d r =>
      have hd : d ≠ quote := by simpa using hr
      simp [literal, hd]
  | case2 c =>
    simp only [plain, Bool.and_eq_true, decide_eq_true_eq] at h
    cases rest with
    | nil => simp [literal, h.1, h.2]
    | cons d r =>
      have hd : d ≠ quote := by simpa using hr
      simp [literal, h.1, h.2, hd]
  | case3 d s => simp [plain] at h
  | case4 d s hq ih =>
    simp only [plain, hq, ↓reduceIte, Bool.and_eq_true, Bool.or_eq_true, decide_eq_true_eq] at h
    have hesc : escaped d = [backslash, d] := by
      rcases h.1 with rfl | rfl <;> rfl
    simp [literal, hq, ih h.2, hesc]
  | case5 c d s hq hb ih =>
    simp only [plain, hq, hb, ↓reduceIte] at h
    have hi := ih h
    simp only [List.cons_append] at hi
    simp [literal, hq, hb, hi]

theorem escaped_length (d : UInt8) :
    (escaped d).length = 1 ∨ escaped d = [backslash, d] ∧ (d = 0x25 ∨ d = 0x5F) := by
  unfold escaped
  split
  · exact Or.inl rfl
  split
  · exact Or.inl rfl
  split
  · exact Or.inl rfl
  split
  · exact Or.inl rfl
  split
  · exact Or.inl rfl
  split
  · exact Or.inl rfl
  split
  · next h => exact Or.inr ⟨rfl, h⟩
  · exact Or.inl rfl

/-- A literal denotes at most as many bytes as it has, and as many only when it
is plain. -/
theorem literal_eq_some {t v r : Bytes} (h : literal t = some (v, r)) :
    ∃ c, t = c ++ quote :: r ∧ v.length ≤ c.length ∧ (c.length ≤ v.length → v = c ∧ plain v) := by
  induction t using literal.induct generalizing v with
  | case1 => cases h
  | case2 =>
    simp only [literal, ↓reduceIte, Option.some.injEq, Prod.mk.injEq] at h
    obtain ⟨rfl, rfl⟩ := h
    exact ⟨[], rfl, Nat.le_refl _, fun _ => ⟨rfl, rfl⟩⟩
  | case3 c hc => simp [literal, hc] at h
  | case4 s ih =>
    simp only [literal, ↓reduceIte, Option.map_eq_some_iff, Prod.mk.injEq] at h
    obtain ⟨⟨v', r'⟩, hl, rfl, rfl⟩ := h
    obtain ⟨c, rfl, hle, -⟩ := ih hl
    refine ⟨quote :: quote :: c, rfl, ?_, fun hge => ?_⟩
    · simp only [List.length_cons]; omega
    · simp only [List.length_cons] at hge; omega
  | case5 d s hd =>
    simp only [literal, ↓reduceIte, if_neg hd, Option.some.injEq, Prod.mk.injEq] at h
    obtain ⟨rfl, rfl⟩ := h
    exact ⟨[], rfl, Nat.le_refl _, fun _ => ⟨rfl, rfl⟩⟩
  | case6 d s hq ih =>
    simp only [literal, if_neg hq, ↓reduceIte, Option.map_eq_some_iff, Prod.mk.injEq] at h
    obtain ⟨⟨v', r'⟩, hl, rfl, rfl⟩ := h
    obtain ⟨c, rfl, hle, hplain⟩ := ih hl
    refine ⟨backslash :: d :: c, rfl, ?_, fun hge => ?_⟩
    · rcases escaped_length d with h1 | ⟨h2, -⟩
      · simp only [List.length_append, List.length_cons, h1]; omega
      · simp only [List.length_append, List.length_cons, h2, List.length_nil]; omega
    · rcases escaped_length d with h1 | ⟨h2, hd⟩
      · simp only [List.length_append, List.length_cons, h1] at hge; omega
      · simp only [List.length_append, List.length_cons, h2, List.length_nil] at hge
        obtain ⟨rfl, hp⟩ := hplain (by omega)
        refine ⟨by rw [h2]; rfl, ?_⟩
        rw [h2]
        simp only [List.cons_append, List.nil_append, plain, if_neg hq, ↓reduceIte, hp,
          Bool.and_true, Bool.or_eq_true, decide_eq_true_eq]
        exact hd
  | case7 c d s hq hb ih =>
    simp only [literal, if_neg hq, if_neg hb, Option.map_eq_some_iff, Prod.mk.injEq] at h
    obtain ⟨⟨v', r'⟩, hl, rfl, rfl⟩ := h
    obtain ⟨t, ht, hle, hplain⟩ := ih hl
    refine ⟨c :: t, by rw [ht]; rfl, ?_, fun hge => ?_⟩
    · simp only [List.length_cons]; omega
    · simp only [List.length_cons] at hge
      obtain ⟨rfl, hp⟩ := hplain (by omega)
      refine ⟨rfl, ?_⟩
      cases v' with
      | nil => simp [plain, hq, hb]
      | cons e v' => simpa [plain, hq, hb] using hp

/-! ## Values -/

/-- What may follow a value: neither a digit nor a quote. -/
def Ends (r : Bytes) : Prop := ∀ b ∈ r.head?, isDigit b = false ∧ b ≠ quote

theorem isDigit_bounds {b : UInt8} (h : isDigit b) : isSpaceC b = false ∧ b ≠ quote ∧ b ≠ 0x2D := by
  simp only [isDigit, Bool.and_eq_true, decide_eq_true_eq, UInt8.le_iff_toNat_le,
    UInt8.reduceToNat] at h
  refine ⟨?_, ?_, ?_⟩
  · simp only [isSpaceC, Bool.or_eq_false_iff, decide_eq_false_iff_not, Bool.and_eq_false_iff,
      UInt8.le_iff_toNat_le, UInt8.reduceToNat]
    refine ⟨?_, Or.inr (by omega)⟩
    rintro rfl
    simp at h
  · rintro rfl
    simp [quote] at h
  · rintro rfl
    simp at h

theorem natural_dumpNat (n : Nat) {r : Bytes} (hr : Ends r) :
    natural (dumpNat n ++ r) = some (n, r) := by
  obtain ⟨htake, hdrop⟩ := span_dumpNat n fun b hb => (hr b hb).1
  rw [natural, htake, hdrop, if_neg (dumpNat_ne_nil n), digitsValue_dumpNat]

theorem value_cons {c : UInt8} (h : isSpaceC c = false) (s : Bytes) :
    value (c :: s) = valueAt (c :: s) := by
  rw [value, List.dropWhile_cons_of_neg (by simp [h])]

theorem value_valueText {v : Value} (h : v.plain) {r : Bytes} (hr : Ends r) :
    value (valueText v ++ r) = some (v, r) := by
  cases v with
  | str s =>
    have hq : r.head? ≠ some quote := fun hh => (hr _ hh).2 rfl
    have happ : valueText (.str s) ++ r = quote :: (s ++ quote :: r) := by simp [valueText]
    rw [happ, value_cons rfl, valueAt, if_pos rfl, literal_plain h hq]
    rfl
  | int n =>
    cases n with
    | ofNat n =>
      obtain ⟨b, t, hb, hd⟩ := dumpNat_cons n
      obtain ⟨hspace, hquote, hminus⟩ := isDigit_bounds hd
      have hn := natural_dumpNat n hr
      rw [hb, List.cons_append] at hn
      rw [valueText, dumpInt, hb, List.cons_append, value_cons hspace, valueAt, if_neg hquote,
        if_neg hminus, hn]
      rfl
    | negSucc n =>
      have hn := natural_dumpNat (n + 1) hr
      rw [valueText, dumpInt, List.cons_append, value_cons rfl, valueAt, if_neg (by decide),
        if_pos rfl, hn]
      rfl

/-! ### What is read is no longer than its text -/

theorem natural_eq_some {s r : Bytes} {n : Nat} (h : natural s = some (n, r)) :
    (dumpNat n).length + r.length ≤ s.length := by
  unfold natural at h
  split at h
  · cases h
  · next hne =>
    simp only [Option.some.injEq, Prod.mk.injEq] at h
    obtain ⟨rfl, rfl⟩ := h
    have hlen := congrArg List.length (List.takeWhile_append_dropWhile (p := isDigit) (l := s))
    rw [List.length_append] at hlen
    have hdigits : ∀ b ∈ s.takeWhile isDigit, isDigit b := fun b hb => List.mem_takeWhile_imp hb
    have hle := dumpNat_length_le (List.length_pos_of_ne_nil hne) (digitsValue_lt hdigits)
    omega

theorem dumpInt_neg_length (n : Nat) : (dumpInt (-(n : Int))).length ≤ (dumpNat n).length + 1 := by
  cases n with
  | zero => simp [dumpInt]
  | succ n =>
    have hneg : -((n + 1 : Nat) : Int) = .negSucc n := rfl
    rw [hneg, dumpInt, List.length_cons]

theorem value_eq_some {s r : Bytes} {v : Value} (h : value s = some (v, r)) :
    (valueText v).length + r.length ≤ s.length := by
  refine le_trans ?_ (List.length_dropWhile_le isSpaceC s)
  unfold value at h
  cases hs : s.dropWhile isSpaceC with
  | nil => rw [hs] at h; cases h
  | cons c s' =>
    rw [hs, valueAt] at h
    split at h
    · obtain ⟨⟨v', r'⟩, hl, heq⟩ := Option.map_eq_some_iff.mp h
      cases heq
      obtain ⟨t, rfl, hle, -⟩ := literal_eq_some hl
      simp only [valueText, List.length_cons, List.length_append, List.length_nil]
      omega
    split at h
    · obtain ⟨⟨n, r'⟩, hn, heq⟩ := Option.map_eq_some_iff.mp h
      cases heq
      have hle := natural_eq_some hn
      have hneg := dumpInt_neg_length n
      simp only [valueText, List.length_cons]
      omega
    · obtain ⟨⟨n, r'⟩, hn, heq⟩ := Option.map_eq_some_iff.mp h
      cases heq
      exact natural_eq_some hn

/-! ## Rows -/

/-- The shortest text of a row: no space behind the commas. -/
def rowSize : List Value → Nat
  | [] => 0
  | [v] => (valueText v).length
  | v :: w :: vs => (valueText v).length + 1 + rowSize (w :: vs)

theorem rowText_length {vs : List Value} (h : vs ≠ []) :
    (rowText vs).length + 1 = rowSize vs + vs.length := by
  induction vs using rowText.induct with
  | case1 => exact absurd rfl h
  | case2 v => rfl
  | case3 v w vs ih =>
    have hi := ih (by simp)
    simp only [rowText, rowSize, List.length_append, List.length_cons] at hi ⊢
    omega

theorem behind_eq_some {c : UInt8} {s r : Bytes} (h : behind c s = some r) :
    r.length < s.length := by
  refine Nat.lt_of_lt_of_le ?_ (List.length_dropWhile_le isSpaceC s)
  unfold behind at h
  cases hs : s.dropWhile isSpaceC with
  | nil => rw [hs] at h; cases h
  | cons d r' =>
    rw [hs] at h
    simp only at h
    split at h
    · cases h; simp
    · cases h

theorem columns_one {s r : Bytes} {v : Value} (h : columns 1 s = some ([v], r)) :
    value s = some (v, r) := by
  obtain ⟨⟨v', r'⟩, hv, heq⟩ := Option.map_eq_some_iff.mp h
  simp only [Prod.mk.injEq, List.cons.injEq, and_true] at heq
  rw [hv, heq.1, heq.2]

theorem columns_cons {n : Nat} {s r : Bytes} {v : Value} {vs : List Value}
    (h : columns (n + 2) s = some (v :: vs, r)) :
    ∃ r₁ r₂, value s = some (v, r₁) ∧ behind 0x2C r₁ = some r₂ ∧
      columns (n + 1) r₂ = some (vs, r) := by
  obtain ⟨⟨v', r₁⟩, hv, h⟩ := Option.bind_eq_some_iff.mp h
  obtain ⟨r₂, hb, h⟩ := Option.bind_eq_some_iff.mp h
  obtain ⟨⟨ws, r₃⟩, hc, heq⟩ := Option.map_eq_some_iff.mp h
  simp only [Prod.mk.injEq, List.cons.injEq] at heq
  exact ⟨r₁, r₂, by rw [hv, heq.1.1], hb, by rw [hc, heq.1.2, heq.2]⟩

theorem columns_eq_some {n : Nat} {s r : Bytes} {vs : List Value} (h : columns n s = some (vs, r)) :
    rowSize vs + r.length ≤ s.length ∧ vs.length = n := by
  induction n, s using columns.induct generalizing vs with
  | case1 => cases h
  | case2 s =>
    obtain ⟨⟨v, r'⟩, hv, heq⟩ := Option.map_eq_some_iff.mp h
    cases heq
    exact ⟨value_eq_some hv, rfl⟩
  | case3 n s ih =>
    obtain ⟨⟨v, r₁⟩, hv, h⟩ := Option.bind_eq_some_iff.mp h
    obtain ⟨r₂, hb, h⟩ := Option.bind_eq_some_iff.mp h
    obtain ⟨⟨ws, r₃⟩, hc, heq⟩ := Option.map_eq_some_iff.mp h
    cases heq
    have hlen := value_eq_some hv
    have hlt : r₂.length < r₁.length := behind_eq_some hb
    obtain ⟨hle, hn⟩ := ih _ hc
    cases ws with
    | nil => cases hn
    | cons w ws =>
      refine ⟨?_, by simp [hn]⟩
      simp only [rowSize] at hle hlen ⊢
      omega

theorem columns_space (n : Nat) (s : Bytes) : columns n (0x20 :: s) = columns n s := by
  have hv : value (0x20 :: s) = value s := rfl
  cases n with
  | zero => rfl
  | succ n => cases n <;> simp only [columns, hv]

theorem behind_self {c : UInt8} (h : isSpaceC c = false) (r : Bytes) :
    behind c (c :: r) = some r := by
  rw [behind, List.dropWhile_cons_of_neg (by simp [h])]
  simp

theorem columns_plain {vs : List Value} (hne : vs ≠ []) (h : ∀ v ∈ vs, v.plain) {r : Bytes}
    (hr : Ends r) : columns vs.length (rowText vs ++ r) = some (vs, r) := by
  induction vs using rowText.induct with
  | case1 => exact absurd rfl hne
  | case2 v =>
    simp only [List.length_singleton, rowText, columns, value_valueText (h v (by simp)) hr,
      Option.map_some]
  | case3 v w vs ih =>
    have hi := ih (by simp) fun u hu => h u (by simp [hu])
    have hcomma : Ends (0x2C :: 0x20 :: (rowText (w :: vs) ++ r)) := by
      intro b hb
      cases hb
      decide
    simp only [List.length_cons] at hi ⊢
    simp only [rowText, List.append_assoc, List.cons_append, columns,
      value_valueText (h v (by simp)) hcomma, Option.bind_some, behind_self (c := 0x2C) (by decide),
      columns_space, hi, Option.map_some]

/-- Reading the text of a string reads its literal. -/
theorem literal_of_value {s t v r : Bytes}
    (h : value (valueText (.str s) ++ t) = some (.str v, r)) :
    literal (s ++ quote :: t) = some (v, r) := by
  have happ : valueText (.str s) ++ t = quote :: (s ++ quote :: t) := by simp [valueText]
  rw [happ, value_cons (by decide), valueAt, if_pos rfl] at h
  obtain ⟨⟨v', r'⟩, hl, heq⟩ := Option.map_eq_some_iff.mp h
  simp only [Prod.mk.injEq, Value.str.injEq] at heq
  rw [hl, heq.1, heq.2]

/-- A string read in full, with at most two of the three bytes behind it used
up, was plain: of those bytes only the first closes a literal. -/
theorem plain_of_value {s t r : Bytes} (hlen : t.length ≤ r.length)
    (h : value (valueText (.str s) ++ (0x2C :: 0x20 :: t)) = some (.str s, r)) :
    plain s ∧ r = 0x2C :: 0x20 :: t := by
  obtain ⟨c, hc, hle, hplain⟩ := literal_eq_some (literal_of_value h)
  have hlens := congrArg List.length hc
  simp only [List.length_append, List.length_cons] at hlens
  -- the closing quote stands at one of three places behind `s`
  have hclose : c.length = s.length := by
    have hget := congrArg (·[c.length]?) hc
    simp only [List.getElem?_append_right (Nat.le_refl _), List.getElem?_append_right hle,
      Nat.sub_self, List.getElem?_cons_zero] at hget
    have hcases : c.length - s.length = 0 ∨ c.length - s.length = 1 ∨ c.length - s.length = 2 := by
      omega
    rcases hcases with h0 | h1 | h2
    · omega
    · rw [h1] at hget
      simp [quote] at hget
    · rw [h2] at hget
      simp [quote] at hget
  obtain ⟨heq, hp⟩ := hplain hclose.le
  rw [← heq] at hc
  exact ⟨hp, (List.cons.inj (List.append_cancel_left hc)).2.symm⟩

theorem plain_of_last {s t r : Bytes} (hlen : t.length ≤ r.length)
    (h : value (valueText (.str s) ++ t) = some (.str s, r)) : plain s := by
  obtain ⟨c, hc, hle, hplain⟩ := literal_eq_some (literal_of_value h)
  have hlens := congrArg List.length hc
  simp only [List.length_append, List.length_cons] at hlens
  exact (hplain (by omega)).2

/-- With at most three columns, a row that reads back as itself is plain: what
a literal denotes is shorter than its text as soon as it is not, and two spaces
are all the text that the row can spare. -/
theorem plain_of_columns {vs : List Value} (h3 : vs.length ≤ 3) {t r : Bytes}
    (hlen : t.length ≤ r.length) (h : columns vs.length (rowText vs ++ t) = some (vs, r)) :
    ∀ v ∈ vs, v.plain := by
  induction vs using rowText.induct with
  | case1 => simp
  | case2 v =>
    have hv := columns_one h
    intro u hu
    cases List.mem_singleton.mp hu
    cases v with
    | int n => rfl
    | str s => exact plain_of_last hlen hv
  | case3 v w vs ih =>
    simp only [rowText, List.append_assoc, List.cons_append] at h
    obtain ⟨r₁, r₂, hv, hb, hc⟩ := columns_cons h
    have hsize := (columns_eq_some hc).1
    have hlt : r₂.length < r₁.length := behind_eq_some hb
    have htext := rowText_length (List.cons_ne_nil w vs)
    simp only [List.length_cons] at htext h3
    have hspare : (rowText (w :: vs) ++ t).length ≤ r₁.length := by
      rw [List.length_append]
      omega
    have hhead : v.plain ∧ r₁ = 0x2C :: 0x20 :: (rowText (w :: vs) ++ t) := by
      cases v with
      | int n =>
        have hcomma : Ends (0x2C :: 0x20 :: (rowText (w :: vs) ++ t)) := by
          intro b hb
          cases hb
          decide
        have hread := value_valueText (v := .int n) rfl hcomma
        rw [hread] at hv
        cases hv
        exact ⟨rfl, rfl⟩
      | str s => exact plain_of_value hspare hv
    obtain ⟨hp, rfl⟩ := hhead
    have hrest : columns (w :: vs).length (rowText (w :: vs) ++ t) = some (w :: vs, r) := by
      rw [behind_self (by decide)] at hb
      cases hb
      rw [columns_space] at hc
      exact hc
    intro u hu
    rcases List.mem_cons.mp hu with rfl | hu
    · exact hp
    · exact ih (by simp only [List.length_cons]; omega) hrest u hu

/-- A written statement is read as exactly its row when every string of it is
plain, and never otherwise. -/
theorem insertRow_iff (head : Bytes) {vs : List Value} (hne : vs ≠ []) (h3 : vs.length ≤ 3) :
    insertRow head vs.length (head ++ (rowText vs ++ [0x29])) = some vs ↔ ∀ v ∈ vs, v.plain := by
  rw [insertRow, List.take_left, if_pos rfl, List.drop_left]
  constructor
  · intro h
    obtain ⟨⟨ws, r⟩, hc, h⟩ := Option.bind_eq_some_iff.mp h
    obtain ⟨r', hb, h⟩ := Option.bind_eq_some_iff.mp h
    have hlt : r'.length < r.length := behind_eq_some hb
    split at h
    · next hend =>
      have hws : ws = vs := Option.some.inj h
      rw [hws] at hc
      refine plain_of_columns h3 (r := r) ?_ hc
      simp only [List.length_singleton]
      omega
    · cases h
  · intro h
    have hclose : Ends [0x29] := by
      intro b hb
      cases hb
      decide
    rw [columns_plain hne h hclose, Option.bind_some, behind_self (by decide)]
    rfl

end MyChat.SqlText
