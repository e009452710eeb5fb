import Mathlib.Data.Nat.Digits.Lemmas
import MyChat.Lib.Json

/-! A concrete JSON text codec: compact output in key order, and a fuelled
recursive-descent parser. It meets the contract `JsonCodec.Lawful`, so the
contract is consistent and closed examples can run. Two corners differ from a
full library: a double is written as its bits with exponent `E0`, and surrogate
escapes are refused. -/

namespace MyChat.JsonText
open Json

/-! ## Serialising -/

def hexDigit (n : Nat) : UInt8 := UInt8.ofNat (if n < 10 then 48 + n else 87 + n)

/-- One byte of a string literal: quote, backslash and control bytes are
escaped, every other byte is copied. -/
def escape (b : UInt8) : Bytes :=
  if b = 0x22 then [0x5C, 0x22]
  else if b = 0x5C then [0x5C, 0x5C]
  else if b = 0x08 then [0x5C, 0x62]
  else if b = 0x09 then [0x5C, 0x74]
  else if b = 0x0A then [0x5C, 0x6E]
  else if b = 0x0C then [0x5C, 0x66]
  else if b = 0x0D then [0x5C, 0x72]
  else if b < 0x20 then
    [0x5C, 0x75, 0x30, 0x30, hexDigit (b.toNat / 16), hexDigit (b.toNat % 16)]
  else [b]

/-- The body of a string literal with its closing quote. -/
def dumpChars : Bytes → Bytes
  | [] => [0x22]
  | b :: s => escape b ++ dumpChars s

mutual
def dumpText : Json → Bytes
  | .null => lit "null"
  | .bool true => lit "true"
  | .bool false => lit "false"
  | .int n => dumpInt n
  | .float bits => dumpNat bits.toNat ++ lit "E0"
  | .str s => 0x22 :: dumpChars s
  | .arr [] => lit "[]"
  | .arr (x :: xs) => 0x5B :: (dumpText x ++ dumpTail xs)
  | .obj [] => lit "{}"
  | .obj ((k, x) :: fs) => 0x7B :: 0x22 :: (dumpChars k ++ 0x3A :: (dumpText x ++ dumpFields fs))
/-- The elements after the first, each behind its comma, and the bracket. -/
def dumpTail : List Json → Bytes
  | [] => [0x5D]
  | x :: xs => 0x2C :: (dumpText x ++ dumpTail xs)
def dumpFields : List (Bytes × Json) → Bytes
  | [] => [0x7D]
  | (k, x) :: fs => 0x2C :: 0x22 :: (dumpChars k ++ 0x3A :: (dumpText x ++ dumpFields fs))
end

/-! ## Parsing -/

def isSpace (b : UInt8) : Bool := b = 0x20 || b = 0x09 || b = 0x0A || b = 0x0D

def skipWs (t : Bytes) : Bytes := t.dropWhile isSpace

def hexValue (b : UInt8) : Option Nat :=
  if 48 ≤ b ∧ b ≤ 57 then some (b.toNat - 48)
  else if 97 ≤ b ∧ b ≤ 102 then some (b.toNat - 87)
  else if 65 ≤ b ∧ b ≤ 70 then some (b.toNat - 55)
  else none

/-- The UTF-8 bytes of a code point below 0x10000. -/
def encodePoint (u : Nat) : Bytes :=
  if u < 0x80 then [UInt8.ofNat u]
  else if u < 0x800 then [UInt8.ofNat (0xC0 + u / 64), UInt8.ofNat (0x80 + u % 64)]
  else [UInt8.ofNat (0xE0 + u / 4096), UInt8.ofNat (0x80 + u / 64 % 64),
    UInt8.ofNat (0x80 + u % 64)]

def simpleEscape (b : UInt8) : Option UInt8 :=
  if b = 0x22 ∨ b = 0x5C ∨ b = 0x2F then some b
  else if b = 0x62 then some 0x08
  else if b = 0x74 then some 0x09
  else if b = 0x6E then some 0x0A
  else if b = 0x66 then some 0x0C
  else if b = 0x72 then some 0x0D
  else none

/-- Inside a string literal: plain text, behind a backslash, or with hex digits
of a `\uXXXX` escape still owed. -/
inductive CharState
  | plain
  | slash
  | hex (owed value : Nat)

def emit (b : Bytes) (p : Bytes × Bytes) : Bytes × Bytes := (b ++ p.1, p.2)

/-- A string literal after its opening quote: the value and the rest. -/
def parseChars : CharState → Bytes → Option (Bytes × Bytes)
  | _, [] => none
  | .plain, b :: r =>
      if b = 0x22 then some ([], r)
      else if b = 0x5C then parseChars .slash r
      else if b < 0x20 then none
      else (parseChars .plain r).map (emit [b])
  | .slash, b :: r =>
      if b = 0x75 then parseChars (.hex 3 0) r
      else (simpleEscape b).bind fun u => (parseChars .plain r).map (emit [u])
  | .hex owed value, b :: r =>
      (hexValue b).bind fun d =>
        let u := 16 * value + d
        match owed with
        | k + 1 => parseChars (.hex k u) r
        | 0 =>
            if 0xD800 ≤ u ∧ u < 0xE000 then none
            else (parseChars .plain r).map (emit (encodePoint u))

def parseString (t : Bytes) : Option (Bytes × Bytes) :=
  (parseChars .plain t).filter fun p => validUtf8 p.1

/-- A digit string without a superfluous leading zero. -/
def parseNat (t : Bytes) : Option (Nat × Bytes) :=
  let ds := t.takeWhile isDigit
  if ds = [] ∨ (1 < ds.length ∧ ds.head? = some 48) then none
  else some (digitsValue ds, t.dropWhile isDigit)

def checked (j : Json) (r : Bytes) : Option (Json × Bytes) :=
  if j.canon then some (j, r) else none

def parseUnsigned (t : Bytes) : Option (Json × Bytes) :=
  (parseNat t).bind fun (n, r) =>
    if (lit "E0").isPrefixOf r then
      if n < 2 ^ 64 then checked (.float (UInt64.ofNat n)) (r.drop 2) else none
    else checked (.int n) r

def parseNumber : Bytes → Option (Json × Bytes)
  | [] => none
  | b :: r =>
      if b = 0x2D then (parseNat r).bind fun (n, r) => checked (.int (-(n : Int))) r
      else parseUnsigned (b :: r)

def expect (b : UInt8) : Bytes → Option Bytes
  | [] => none
  | c :: r => if c = b then some r else none

def keyword (w : Bytes) (j : Json) (t : Bytes) : Option (Json × Bytes) :=
  if w.isPrefixOf t then some (j, t.drop w.length) else none

def ofFields (fs : List (Bytes × Json)) : Json :=
  .obj (fs.foldl (fun acc f => insert f.1 f.2 acc) [])

mutual
def parseValue : Nat → Bytes → Option (Json × Bytes)
  | 0, _ => none
  | n + 1, t =>
      match skipWs t with
      | [] => none
      | b :: r =>
          if b = 0x22 then (parseString r).map fun (s, r) => (.str s, r)
          else if b = 0x5B then parseArray n (skipWs r)
          else if b = 0x7B then parseObject n (skipWs r)
          else if b = 0x6E then keyword (lit "ull") .null r
          else if b = 0x74 then keyword (lit "rue") (.bool true) r
          else if b = 0x66 then keyword (lit "alse") (.bool false) r
          else parseNumber (b :: r)
def parseArray : Nat → Bytes → Option (Json × Bytes)
  | 0, _ => none
  | n + 1, t =>
      match expect 0x5D t with
      | some r => some (.arr [], r)
      | none => do
          let (x, r) ← parseValue n t
          let (xs, r) ← parseTail n (skipWs r)
          some (.arr (x :: xs), r)
def parseTail : Nat → Bytes → Option (List Json × Bytes)
  | 0, _ => none
  | n + 1, t =>
      match expect 0x5D t with
      | some r => some ([], r)
      | none => do
          let (x, r) ← parseValue n (← expect 0x2C t)
          let (xs, r) ← parseTail n (skipWs r)
          some (x :: xs, r)
def parseObject : Nat → Bytes → Option (Json × Bytes)
  | 0, _ => none
  | n + 1, t =>
      match expect 0x7D t with
      | some r => some (.obj [], r)
      | none => do
          let (f, r) ← parseField n t
          let (fs, r) ← parseFields n (skipWs r)
          some (ofFields (f :: fs), r)
def parseField : Nat → Bytes → Option ((Bytes × Json) × Bytes)
  | 0, _ => none
  | n + 1, t => do
      let (k, r) ← parseString (← expect 0x22 t)
      let (x, r) ← parseValue n (← expect 0x3A (skipWs r))
      some ((k, x), r)
def parseFields : Nat → Bytes → Option (List (Bytes × Json) × Bytes)
  | 0, _ => none
  | n + 1, t =>
      match expect 0x7D t with
      | some r => some ([], r)
      | none => do
          let (f, r) ← parseField n (skipWs (← expect 0x2C t))
          let (fs, r) ← parseFields n (skipWs r)
          some (f :: fs, r)
end

def parse (t : Bytes) : Option Json := do
  let (j, r) ← parseValue (2 * t.length) t
  if skipWs r = [] then some j else none

def dump (j : Json) : Option Bytes := if j.utf8 then some (dumpText j) else none

def codec : JsonCodec := ⟨parse, dump⟩

example : (parse (lit "\x7b\"b\": [1, -20 ,true], \"a\":\"x\\n\\u00e9\"\x7d")).bind dump =
    some (lit "\x7b\"a\":\"x\\né\",\"b\":[1,-20,true]\x7d") := by decide +kernel

/-! ## Strings -/

theorem hexValue_hexDigit : ∀ n < 16, hexValue (hexDigit n) = some n := by decide

theorem parseChars_slash (r : Bytes) : parseChars .plain (0x5C :: r) = parseChars .slash r := by
  rw [parseChars, if_neg (by decide), if_pos rfl]

theorem parseChars_hex {c : UInt8} {d : Nat} (h : hexValue c = some d) (k v : Nat) (r : Bytes) :
    parseChars (.hex (k + 1) v) (c :: r) = parseChars (.hex k (16 * v + d)) r := by
  rw [parseChars, h]
  rfl

theorem parseChars_control (b : UInt8) (h : b < 0x20) (t : Bytes) :
    parseChars .plain (0x5C :: 0x75 :: 0x30 :: 0x30 ::
      hexDigit (b.toNat / 16) :: hexDigit (b.toNat % 16) :: t) =
      (parseChars .plain t).map (emit [b]) := by
  have hb : b.toNat < 32 := by simpa using UInt8.lt_iff_toNat_lt.mp h
  have hz : hexValue 0x30 = some 0 := rfl
  have hu : 16 * (16 * (16 * (16 * 0 + 0) + 0) + b.toNat / 16) + b.toNat % 16 = b.toNat := by omega
  rw [parseChars_slash, parseChars, if_pos rfl, parseChars_hex hz, parseChars_hex hz,
    parseChars_hex (hexValue_hexDigit _ (show b.toNat / 16 < 16 by omega)), parseChars,
    hexValue_hexDigit _ (show b.toNat % 16 < 16 by omega), Option.bind_some]
  simp only [hu]
  rw [if_neg (by omega), encodePoint, if_pos (by omega), UInt8.ofNat_toNat]

theorem parseChars_simple {e b : UInt8} (he : e ≠ 0x75) (h : simpleEscape e = some b) (t : Bytes) :
    parseChars .plain (0x5C :: e :: t) = (parseChars .plain t).map (emit [b]) := by
  rw [parseChars_slash, parseChars, if_neg he, h, Option.bind_some]

theorem parseChars_escape (b : UInt8) (t : Bytes) :
    parseChars .plain (escape b ++ t) = (parseChars .plain t).map (emit [b]) := by
  unfold escape
  by_cases h22 : b = 0x22
  · subst h22; exact parseChars_simple (by decide) rfl t
  by_cases h5c : b = 0x5C
  · subst h5c; exact parseChars_simple (by decide) rfl t
  by_cases h08 : b = 0x08
  · subst h08; exact parseChars_simple (by decide) rfl t
  by_cases h09 : b = 0x09
  · subst h09; exact parseChars_simple (by decide) rfl t
  by_cases h0a : b = 0x0A
  · subst h0a; exact parseChars_simple (by decide) rfl t
  by_cases h0c : b = 0x0C
  · subst h0c; exact parseChars_simple (by decide) rfl t
  by_cases h0d : b = 0x0D
  · subst h0d; exact parseChars_simple (by decide) rfl t
  simp only [h22, h5c, h08, h09, h0a, h0c, h0d, ↓reduceIte]
  split
  · next h => exact parseChars_control b h t
  · next h => simp [parseChars, h22, h5c, h]

theorem parseChars_dumpChars (s r : Bytes) :
    parseChars .plain (dumpChars s ++ r) = some (s, r) := by
  induction s with
  | nil => rfl
  | cons b s ih => simp [dumpChars, parseChars_escape, ih, emit]

theorem parseString_dumpChars {s : Bytes} (hs : validUtf8 s) (r : Bytes) :
    parseString (dumpChars s ++ r) = some (s, r) := by
  simp [parseString, parseChars_dumpChars, hs]

/-! ## Numbers -/

theorem dumpNat_leading (n : Nat) : ¬ (1 < (dumpNat n).length ∧ (dumpNat n).head? = some 48) := by
  unfold dumpNat
  split
  · simp
  · next h =>
    rintro ⟨-, hh⟩
    have hne : Nat.digits 10 n ≠ [] := Nat.digits_ne_nil_iff_ne_zero.mpr h
    rw [List.head?_map, List.head?_reverse, List.getLast?_eq_some_getLast hne] at hh
    have hlast := Nat.getLast_digit_ne_zero 10 h
    have hlt := Nat.digits_lt_base (b := 10) (by decide) (List.getLast_mem hne)
    have hall : ∀ d < 10, UInt8.ofNat (48 + d) = 48 → d = 0 := by decide
    exact hlast (hall _ hlt (by simpa using hh))

theorem parseNat_dumpNat (n : Nat) {r : Bytes} (hr : ∀ b ∈ r.head?, isDigit b = false) :
    parseNat (dumpNat n ++ r) = some (n, r) := by
  obtain ⟨htake, hdrop⟩ := span_dumpNat n hr
  simp only [parseNat, htake, hdrop, digitsValue_dumpNat]
  rw [if_neg]
  exact fun h => h.elim (dumpNat_ne_nil n) (dumpNat_leading n)

/-- What may follow a value: nothing that would continue a number. -/
def Ends (r : Bytes) : Prop := ∀ b ∈ r.head?, isDigit b = false ∧ b ≠ 0x45

theorem parseUnsigned_int {n : Nat} (hc : (Json.int n).canon) {r : Bytes} (hr : Ends r) :
    parseUnsigned (dumpNat n ++ r) = some (.int n, r) := by
  have hpre : (lit "E0").isPrefixOf r = false := by
    cases r with
    | nil => rfl
    | cons b r =>
      have hb : (0x45 == b) = false := by simpa using (hr b (by simp)).2.symm
      show (0x45 == b && _) = false
      rw [hb, Bool.false_and]
  rw [parseUnsigned, parseNat_dumpNat n fun b hb => (hr b hb).1, Option.bind_some]
  simp [hpre, checked, hc]

theorem parseUnsigned_float {bits : UInt64} (hc : (Json.float bits).canon) (r : Bytes) :
    parseUnsigned (dumpNat bits.toNat ++ (lit "E0" ++ r)) = some (.float bits, r) := by
  have hlt : bits.toNat < 2 ^ 64 := bits.toNat_lt
  have hd : ∀ b ∈ (lit "E0" ++ r).head?, isDigit b = false := by
    intro b hb
    have hb' : b ∈ some (0x45 : UInt8) := hb
    cases hb'
    rfl
  have hpre : (lit "E0").isPrefixOf (lit "E0" ++ r) = true := by
    rw [List.isPrefixOf_iff_prefix]
    exact List.prefix_append _ _
  rw [parseUnsigned, parseNat_dumpNat _ hd, Option.bind_some]
  simp only [hpre, ↓reduceIte, hlt, checked, hc, UInt64.ofNat_toNat]
  rfl

/-- Numbers start with a digit or a minus sign. -/
def numberByte (b : UInt8) : Bool := isDigit b || b = 0x2D

theorem isDigit_ne {b c : UInt8} (hb : isDigit b) (hc : isDigit c = false) : b ≠ c := by
  intro h
  rw [h, hc] at hb
  cases hb

theorem parseNumber_dumpInt {n : Int} (hc : (Json.int n).canon) {r : Bytes} (hr : Ends r) :
    parseNumber (dumpInt n ++ r) = some (.int n, r) := by
  cases n with
  | ofNat n =>
    obtain ⟨b, t, hb, hd⟩ := dumpNat_cons n
    have hu := parseUnsigned_int (n := n) hc hr
    simp only [dumpInt, hb, List.cons_append] at hu ⊢
    rw [parseNumber, if_neg (isDigit_ne hd rfl), hu]
    rfl
  | negSucc n =>
    rw [dumpInt, List.cons_append, parseNumber, if_pos rfl,
      parseNat_dumpNat _ fun b hb => (hr b hb).1, Option.bind_some]
    have hn : -((n + 1 : Nat) : Int) = .negSucc n := rfl
    simp only [checked, hn, hc, ↓reduceIte]

/-- How a value that is no number starts, and that it is neither space nor a
closing bracket. -/
def startByte (b : UInt8) : Bool :=
  numberByte b || b = 0x22 || b = 0x5B || b = 0x7B || b = 0x6E || b = 0x74 || b = 0x66

theorem dumpInt_cons (n : Int) : ∃ b t, dumpInt n = b :: t ∧ numberByte b := by
  cases n with
  | ofNat n =>
    obtain ⟨b, t, hb, hd⟩ := dumpNat_cons n
    exact ⟨b, t, hb, by simp [numberByte, hd]⟩
  | negSucc n => exact ⟨0x2D, _, rfl, rfl⟩

theorem dumpText_cons (j : Json) : ∃ b t, dumpText j = b :: t ∧ startByte b := by
  match j with
  | .null => exact ⟨0x6E, lit "ull", by simp [dumpText]; rfl, rfl⟩
  | .bool true => exact ⟨0x74, lit "rue", by simp [dumpText]; rfl, rfl⟩
  | .bool false => exact ⟨0x66, lit "alse", by simp [dumpText]; rfl, rfl⟩
  | .int n =>
    obtain ⟨b, t, hb, hd⟩ := dumpInt_cons n
    exact ⟨b, t, by simp [dumpText, hb], by simp [startByte, hd]⟩
  | .float bits =>
    obtain ⟨b, t, hb, hd⟩ := dumpNat_cons bits.toNat
    exact ⟨b, t ++ lit "E0", by simp [dumpText, hb], by simp [startByte, numberByte, hd]⟩
  | .str s => exact ⟨0x22, _, by rw [dumpText], rfl⟩
  | .arr [] => exact ⟨0x5B, [0x5D], by simp [dumpText]; rfl, rfl⟩
  | .arr (x :: xs) => exact ⟨0x5B, _, by rw [dumpText], rfl⟩
  | .obj [] => exact ⟨0x7B, [0x7D], by simp [dumpText]; rfl, rfl⟩
  | .obj ((k, x) :: fs) => exact ⟨0x7B, _, by rw [dumpText], rfl⟩

theorem skipWs_of_start {b : UInt8} (hb : isSpace b = false) (t : Bytes) :
    skipWs (b :: t) = b :: t := by
  simp [skipWs, hb]

theorem startByte_ne {b c : UInt8} (hb : startByte b) (hc : startByte c = false) : b ≠ c := by
  intro h
  rw [h, hc] at hb
  cases hb

theorem startByte_not_space {b : UInt8} (hb : startByte b) : isSpace b = false := by
  simp only [isSpace, Bool.or_eq_false_iff, decide_eq_false_iff_not]
  exact ⟨⟨⟨startByte_ne hb rfl, startByte_ne hb rfl⟩, startByte_ne hb rfl⟩, startByte_ne hb rfl⟩

theorem skipWs_dumpText (j : Json) (r : Bytes) : skipWs (dumpText j ++ r) = dumpText j ++ r := by
  obtain ⟨b, t, hb, hs⟩ := dumpText_cons j
  rw [hb, List.cons_append, skipWs_of_start (startByte_not_space hs)]

theorem expect_dumpText {c : UInt8} (hc : startByte c = false) (j : Json) (r : Bytes) :
    expect c (dumpText j ++ r) = none := by
  obtain ⟨b, t, hb, hs⟩ := dumpText_cons j
  rw [hb, List.cons_append, expect, if_neg (startByte_ne hs hc)]

/-! ## Round trip -/

theorem insert_last {k : Bytes} (v : Json) {acc : List (Bytes × Json)} (h : ∀ f ∈ acc, f.1 < k) :
    insert k v acc = acc ++ [(k, v)] := by
  induction acc with
  | nil => rfl
  | cons f acc ih =>
    have hf : f.1 < k := h f (by simp)
    have hne : f.1 ≠ k := fun he => List.lt_irrefl k (he ▸ hf)
    have hnlt : ¬ k < f.1 := fun hl => List.lt_irrefl k (List.lt_trans hl hf)
    simp only [Json.insert, hne, hnlt, ↓reduceIte, List.cons_append]
    rw [ih fun g hg => h g (by simp [hg])]

theorem foldl_insert_sorted {fs acc : List (Bytes × Json)} (hs : sorted fs)
    (hacc : ∀ f ∈ acc, ∀ g ∈ fs.head?, f.1 < g.1) :
    fs.foldl (fun acc f => insert f.1 f.2 acc) acc = acc ++ fs := by
  induction fs generalizing acc with
  | nil => simp
  | cons f fs ih =>
    have hf : ∀ g ∈ acc, g.1 < f.1 := fun g hg => hacc g hg f rfl
    have habove : above f.1 fs := hs
    rw [List.foldl_cons, insert_last f.2 hf, ih]
    · simp
    · cases fs with
      | nil => rfl
      | cons g fs =>
        simp only [above, Bool.and_eq_true] at habove
        exact habove.2
    · intro g hg e he
      cases fs with
      | nil => cases he
      | cons e' fs =>
        cases he
        simp only [above, Bool.and_eq_true, decide_eq_true_eq] at habove
        rcases List.mem_append.mp hg with hg | hg
        · exact List.lt_trans (hf g hg) habove.1
        · cases List.mem_singleton.mp hg; exact habove.1

theorem ofFields_sorted {fs : List (Bytes × Json)} (hs : sorted fs) : ofFields fs = .obj fs := by
  rw [ofFields, foldl_insert_sorted hs (by simp), List.nil_append]

theorem ends_dumpTail (xs : List Json) (r : Bytes) : Ends (dumpTail xs ++ r) := by
  intro b hb
  cases xs <;> (simp only [dumpTail, List.cons_append, List.head?_cons] at hb; cases hb; decide)

theorem ends_dumpFields (fs : List (Bytes × Json)) (r : Bytes) : Ends (dumpFields fs ++ r) := by
  intro b hb
  rcases fs with _ | ⟨⟨k, x⟩, fs⟩ <;>
    (simp only [dumpFields, List.cons_append, List.head?_cons] at hb; cases hb; decide)

theorem skipWs_dumpTail (xs : List Json) (r : Bytes) :
    skipWs (dumpTail xs ++ r) = dumpTail xs ++ r := by
  cases xs <;> rw [dumpTail, List.cons_append, skipWs_of_start rfl]

theorem skipWs_dumpFields (fs : List (Bytes × Json)) (r : Bytes) :
    skipWs (dumpFields fs ++ r) = dumpFields fs ++ r := by
  rcases fs with _ | ⟨⟨k, x⟩, fs⟩ <;> rw [dumpFields, List.cons_append, skipWs_of_start rfl]

theorem parseValue_number {n : Nat} {b : UInt8} {t r : Bytes} {j : Json} (hb : numberByte b)
    (h : parseNumber (b :: t) = some (j, r)) : parseValue (n + 1) (b :: t) = some (j, r) := by
  have hs : startByte b := by simp [startByte, hb]
  have hne : ∀ c, numberByte c = false → b ≠ c := by
    intro c hc he
    rw [he, hc] at hb
    cases hb
  rw [parseValue, skipWs_of_start (startByte_not_space hs)]
  simp only [hne 0x22 rfl, hne 0x5B rfl, hne 0x7B rfl, hne 0x6E rfl, hne 0x74 rfl, hne 0x66 rfl,
    ↓reduceIte, h]

theorem parseValue_int {n : Int} (hc : (Json.int n).canon) {r : Bytes} (hr : Ends r) (k : Nat) :
    parseValue (k + 1) (dumpInt n ++ r) = some (.int n, r) := by
  have h := parseNumber_dumpInt hc hr
  obtain ⟨b, t, hb, hd⟩ := dumpInt_cons n
  rw [hb] at h ⊢
  exact parseValue_number hd h

theorem parseValue_float {bits : UInt64} (hc : (Json.float bits).canon) (r : Bytes) (k : Nat) :
    parseValue (k + 1) (dumpNat bits.toNat ++ (lit "E0" ++ r)) = some (.float bits, r) := by
  have h := parseUnsigned_float hc r
  obtain ⟨b, t, hb, hd⟩ := dumpNat_cons bits.toNat
  rw [hb] at h ⊢
  apply parseValue_number (by simp [numberByte, hd])
  rw [parseNumber, if_neg (isDigit_ne hd rfl)]
  exact h

mutual
/-- Parsing a serialised value gives it back and stops where it ends. One
induction over the three kinds of text, with two units of fuel a byte. -/
theorem parseValue_dumpText {j : Json} (hc : j.canon) (hu : j.utf8) {r : Bytes} (hr : Ends r)
    {n : Nat} (hn : 2 * (dumpText j).length ≤ n) :
    parseValue n (dumpText j ++ r) = some (j, r) := by
  match j, n with
  | j, 0 =>
    obtain ⟨b, t, hb, -⟩ := dumpText_cons j
    simp [hb] at hn
  | .null, n + 1 => rw [dumpText]; rfl
  | .bool true, n + 1 => rw [dumpText]; rfl
  | .bool false, n + 1 => rw [dumpText]; rfl
  | .int i, n + 1 => rw [dumpText]; exact parseValue_int hc hr n
  | .float bits, n + 1 =>
    rw [dumpText, List.append_assoc]
    exact parseValue_float hc r n
  | .str s, n + 1 =>
    rw [dumpText, List.cons_append, parseValue, skipWs_of_start rfl]
    simp only [↓reduceIte, parseString_dumpChars hu, Option.map_some]
  | .arr [], n + 1 =>
    have hl : (lit "[]").length = 2 := rfl
    simp only [dumpText] at hn ⊢
    obtain ⟨n, rfl⟩ : ∃ m, n = m + 1 := ⟨n - 1, by omega⟩
    rfl
  | .arr (x :: xs), n + 1 =>
    simp only [dumpText, List.length_cons, List.length_append] at hn
    obtain ⟨n, rfl⟩ : ∃ m, n = m + 1 := ⟨n - 1, by omega⟩
    simp only [canon, canonList, Bool.and_eq_true] at hc
    simp only [utf8, utf8List, Bool.and_eq_true] at hu
    have hx := parseValue_dumpText hc.1 hu.1 (ends_dumpTail xs r) (n := n) (by omega)
    have hxs := parseTail_dumpTail hc.2 hu.2 r (n := n) (by omega)
    rw [dumpText, List.cons_append, List.append_assoc, parseValue, skipWs_of_start rfl]
    simp only [show ((0x5B : UInt8) = 0x22) = False by decide, ↓reduceIte]
    rw [skipWs_dumpText, parseArray, expect_dumpText rfl]
    simp only [hx, Option.bind_eq_bind, Option.bind_some, skipWs_dumpTail, hxs]
  | .obj [], n + 1 =>
    have hl : (lit "{}").length = 2 := rfl
    simp only [dumpText] at hn ⊢
    obtain ⟨n, rfl⟩ : ∃ m, n = m + 1 := ⟨n - 1, by omega⟩
    rfl
  | .obj ((k, x) :: fs), n + 1 =>
    simp only [dumpText, List.length_cons, List.length_append] at hn
    obtain ⟨n, rfl⟩ : ∃ m, n = m + 2 := ⟨n - 2, by omega⟩
    simp only [canon, canonFields, Bool.and_eq_true] at hc
    simp only [utf8, utf8Fields, Bool.and_eq_true] at hu
    have hf := parseField_dump hc.2.1 hu.1.1 hu.1.2 (ends_dumpFields fs r) (n := n) (by omega)
    have hfs := parseFields_dumpFields hc.2.2 hu.2 r (n := n + 1) (by omega)
    rw [dumpText, List.cons_append, List.cons_append, parseValue, skipWs_of_start rfl]
    simp only [show ((0x7B : UInt8) = 0x22) = False by decide,
      show ((0x7B : UInt8) = 0x5B) = False by
        decide, ↓reduceIte, List.append_assoc, List.cons_append]
    rw [skipWs_of_start rfl, parseObject, expect, if_neg (by decide)]
    simp only [hf, Option.bind_eq_bind, Option.bind_some, skipWs_dumpFields, hfs,
      ofFields_sorted hc.1]
theorem parseTail_dumpTail {xs : List Json} (hc : canonList xs) (hu : utf8List xs) (r : Bytes)
    {n : Nat} (hn : 2 * (dumpTail xs).length ≤ n) :
    parseTail n (dumpTail xs ++ r) = some (xs, r) := by
  match xs, n with
  | [], 0 => simp [dumpTail] at hn
  | [], n + 1 => rw [dumpTail]; rfl
  | x :: xs, n =>
    simp only [dumpTail, List.length_cons, List.length_append] at hn
    obtain ⟨n, rfl⟩ : ∃ m, n = m + 1 := ⟨n - 1, by omega⟩
    simp only [canonList, Bool.and_eq_true] at hc
    simp only [utf8List, Bool.and_eq_true] at hu
    have hx := parseValue_dumpText hc.1 hu.1 (ends_dumpTail xs r) (n := n) (by omega)
    have hxs := parseTail_dumpTail hc.2 hu.2 r (n := n) (by omega)
    rw [dumpTail, List.cons_append, List.append_assoc, parseTail, expect,
      if_neg (by decide), expect, if_pos rfl]
    simp only [hx, Option.bind_eq_bind, Option.bind_some, skipWs_dumpTail, hxs]
theorem parseField_dump {k : Bytes} {x : Json} (hc : x.canon) (hk : validUtf8 k) (hu : x.utf8)
    {r : Bytes} (hr : Ends r) {n : Nat} (hn : 2 * (dumpText x).length ≤ n) :
    parseField (n + 1) (0x22 :: (dumpChars k ++ 0x3A :: (dumpText x ++ r))) = some ((k, x), r) := by
  have hx := parseValue_dumpText hc hu hr hn
  rw [parseField, expect, if_pos rfl]
  simp only [Option.bind_eq_bind, Option.bind_some, parseString_dumpChars hk]
  rw [skipWs_of_start rfl, expect, if_pos rfl]
  simp only [Option.bind_some, hx]
theorem parseFields_dumpFields {fs : List (Bytes × Json)} (hc : canonFields fs) (hu : utf8Fields fs)
    (r : Bytes) {n : Nat} (hn : 2 * (dumpFields fs).length ≤ n) :
    parseFields n (dumpFields fs ++ r) = some (fs, r) := by
  match fs, n with
  | [], 0 => simp [dumpFields] at hn
  | [], n + 1 => rw [dumpFields]; rfl
  | (k, x) :: fs, n =>
    simp only [dumpFields, List.length_cons, List.length_append] at hn
    obtain ⟨n, rfl⟩ : ∃ m, n = m + 2 := ⟨n - 2, by omega⟩
    simp only [canonFields, Bool.and_eq_true] at hc
    simp only [utf8Fields, Bool.and_eq_true] at hu
    have hf := parseField_dump hc.1 hu.1.1 hu.1.2 (ends_dumpFields fs r) (n := n) (by omega)
    have hfs := parseFields_dumpFields hc.2 hu.2 r (n := n + 1) (by omega)
    rw [dumpFields, List.cons_append, parseFields, expect, if_neg (by decide), expect, if_pos rfl]
    simp only [Option.bind_eq_bind, Option.bind_some, List.cons_append, List.append_assoc]
    rw [skipWs_of_start rfl, hf]
    simp only [Option.bind_some, skipWs_dumpFields, hfs]
end

theorem parse_dump {j : Json} {t : Bytes} (hc : j.canon) (h : dump j = some t) :
    parse t = some j := by
  unfold dump at h
  split at h
  · next hu =>
    cases h
    have hv := parseValue_dumpText hc hu (r := []) (by intro b hb; cases hb)
      (n := 2 * (dumpText j).length) (Nat.le_refl _)
    rw [List.append_nil] at hv
    simp [parse, hv, skipWs]
  · cases h

/-! ## What is parsed is well formed -/

theorem parseString_valid {t s r : Bytes} (h : parseString t = some (s, r)) : validUtf8 s := by
  unfold parseString at h
  exact (Option.filter_eq_some_iff.mp h).2

def Good (j : Json) : Prop := j.canon ∧ j.utf8

theorem checked_good {j j' : Json} {r r' : Bytes} (hu : j.utf8)
    (h : checked j r = some (j', r')) : Good j' := by
  unfold checked at h
  split at h
  · next hc => cases h; exact ⟨hc, hu⟩
  · cases h

theorem parseUnsigned_good {t r : Bytes} {j : Json} (h : parseUnsigned t = some (j, r)) :
    Good j := by
  obtain ⟨⟨n, r₁⟩, -, h⟩ := Option.bind_eq_some_iff.mp h
  simp only at h
  repeat' split at h
  · exact checked_good rfl h
  · cases h
  · exact checked_good rfl h

theorem parseNumber_good {t r : Bytes} {j : Json} (h : parseNumber t = some (j, r)) : Good j := by
  cases t with
  | nil => cases h
  | cons b t =>
    rw [parseNumber] at h
    split at h
    · obtain ⟨⟨n, r₁⟩, -, h⟩ := Option.bind_eq_some_iff.mp h
      exact checked_good rfl h
    · exact parseUnsigned_good h

theorem keyword_good {w t r : Bytes} {k j : Json} (hk : Good k)
    (h : keyword w k t = some (j, r)) : Good j := by
  unfold keyword at h
  split at h
  · cases h; exact hk
  · cases h

theorem ofFields_good {fs : List (Bytes × Json)} (hc : canonFields fs) (hu : utf8Fields fs) :
    Good (ofFields fs) := by
  have hfold : ∀ fs acc : List (Bytes × Json), canonFields fs → utf8Fields fs → sorted acc →
      canonFields acc → utf8Fields acc →
      Good (.obj (fs.foldl (fun acc f => Json.insert f.1 f.2 acc) acc)) := by
    intro fs
    induction fs with
    | nil =>
      intro acc _ _ hs hca hua
      exact ⟨by simp [canon, hs, hca], by simpa [utf8] using hua⟩
    | cons f fs ih =>
      intro acc hc hu hs hca hua
      simp only [canonFields, Bool.and_eq_true] at hc
      simp only [utf8Fields, Bool.and_eq_true] at hu
      exact ih _ hc.2 hu.2 (sorted_insert _ _ hs) (canonFields_insert _ hc.1 hca)
        (utf8Fields_insert hu.1.1 hu.1.2 hua)
  exact hfold fs [] hc hu rfl rfl rfl

/-- Every parsing function of one fuel level returns well-formed values. -/
structure LevelGood (n : Nat) : Prop where
  value : ∀ {t j r}, parseValue n t = some (j, r) → Good j
  array : ∀ {t j r}, parseArray n t = some (j, r) → Good j
  tail : ∀ {t xs r}, parseTail n t = some (xs, r) → canonList xs ∧ utf8List xs
  object : ∀ {t j r}, parseObject n t = some (j, r) → Good j
  field : ∀ {t f r}, parseField n t = some (f, r) → Good f.2 ∧ validUtf8 f.1
  fields : ∀ {t fs r}, parseFields n t = some (fs, r) → canonFields fs ∧ utf8Fields fs

namespace LevelGood

variable {n : Nat}

theorem zero : LevelGood 0 := by
  constructor
  · intro t j r h; rw [parseValue] at h; cases h
  · intro t j r h; rw [parseArray] at h; cases h
  · intro t xs r h; rw [parseTail] at h; cases h
  · intro t j r h; rw [parseObject] at h; cases h
  · intro t f r h; rw [parseField] at h; cases h
  · intro t fs r h; rw [parseFields] at h; cases h

theorem value_succ (ih : LevelGood n) {t r : Bytes} {j : Json}
    (h : parseValue (n + 1) t = some (j, r)) : Good j := by
  rw [parseValue] at h
  split at h
  · cases h
  · next b t' _ =>
    split at h
    · obtain ⟨⟨s, r'⟩, hs, he⟩ := Option.map_eq_some_iff.mp h
      cases he
      exact ⟨rfl, parseString_valid hs⟩
    split at h
    · exact ih.array h
    split at h
    · exact ih.object h
    split at h
    · exact keyword_good ⟨rfl, rfl⟩ h
    split at h
    · exact keyword_good ⟨rfl, rfl⟩ h
    split at h
    · exact keyword_good ⟨rfl, rfl⟩ h
    · exact parseNumber_good h

theorem array_succ (ih : LevelGood n) {t r : Bytes} {j : Json}
    (h : parseArray (n + 1) t = some (j, r)) : Good j := by
  rw [parseArray] at h
  split at h
  · cases h; exact ⟨rfl, rfl⟩
  · simp only [Option.bind_eq_bind, Option.bind_eq_some_iff] at h
    obtain ⟨⟨x, r₁⟩, hx, ⟨xs, r₂⟩, hxs, he⟩ := h
    cases he
    have h1 := ih.value hx
    have h2 := ih.tail hxs
    exact ⟨by simp [canon, canonList, h1.1, h2.1], by simp [utf8, utf8List, h1.2, h2.2]⟩

theorem tail_succ (ih : LevelGood n) {t r : Bytes} {xs : List Json}
    (h : parseTail (n + 1) t = some (xs, r)) : canonList xs ∧ utf8List xs := by
  rw [parseTail] at h
  split at h
  · cases h; exact ⟨rfl, rfl⟩
  · simp only [Option.bind_eq_bind, Option.bind_eq_some_iff] at h
    obtain ⟨t', -, ⟨x, r₁⟩, hx, ⟨xs, r₂⟩, hxs, he⟩ := h
    cases he
    have h1 := ih.value hx
    have h2 := ih.tail hxs
    exact ⟨by simp [canonList, h1.1, h2.1], by simp [utf8List, h1.2, h2.2]⟩

theorem object_succ (ih : LevelGood n) {t r : Bytes} {j : Json}
    (h : parseObject (n + 1) t = some (j, r)) : Good j := by
  rw [parseObject] at h
  split at h
  · cases h; exact ⟨rfl, rfl⟩
  · simp only [Option.bind_eq_bind, Option.bind_eq_some_iff] at h
    obtain ⟨⟨f, r₁⟩, hf, ⟨fs, r₂⟩, hfs, he⟩ := h
    cases he
    have h1 := ih.field hf
    have h2 := ih.fields hfs
    exact ofFields_good (by simp [canonFields, h1.1.1, h2.1])
      (by simp [utf8Fields, h1.1.2, h1.2, h2.2])

theorem field_succ (ih : LevelGood n) {t r : Bytes} {f : Bytes × Json}
    (h : parseField (n + 1) t = some (f, r)) : Good f.2 ∧ validUtf8 f.1 := by
  rw [parseField] at h
  simp only [Option.bind_eq_bind, Option.bind_eq_some_iff] at h
  obtain ⟨t', -, ⟨k, r₁⟩, hk, t₂, -, ⟨x, r₂⟩, hx, he⟩ := h
  cases he
  exact ⟨ih.value hx, parseString_valid hk⟩

theorem fields_succ (ih : LevelGood n) {t r : Bytes} {fs : List (Bytes × Json)}
    (h : parseFields (n + 1) t = some (fs, r)) : canonFields fs ∧ utf8Fields fs := by
  rw [parseFields] at h
  split at h
  · cases h; exact ⟨rfl, rfl⟩
  · simp only [Option.bind_eq_bind, Option.bind_eq_some_iff] at h
    obtain ⟨t', -, ⟨f, r₁⟩, hf, ⟨fs, r₂⟩, hfs, he⟩ := h
    cases he
    have h1 := ih.field hf
    have h2 := ih.fields hfs
    exact ⟨by simp [canonFields, h1.1.1, h2.1], by simp [utf8Fields, h1.1.2, h1.2, h2.2]⟩

end LevelGood

theorem levelGood (n : Nat) : LevelGood n := by
  induction n with
  | zero => exact .zero
  | succ n ih =>
    exact ⟨ih.value_succ, ih.array_succ, ih.tail_succ, ih.object_succ, ih.field_succ,
      ih.fields_succ⟩

theorem parse_good {t : Bytes} {j : Json} (h : parse t = some j) : Good j := by
  simp only [parse, Option.bind_eq_bind, Option.bind_eq_some_iff] at h
  obtain ⟨⟨j', r⟩, hj, he⟩ := h
  simp only at he
  split at he
  · cases he; exact (levelGood _).value hj
  · cases he

/-! ## The text is UTF-8 -/

theorem escape_ascii {b : UInt8} (hb : b < 0x80) : ∀ c ∈ escape b, c < 0x80 := by
  have hall : ∀ n < 128, ∀ c ∈ escape (UInt8.ofNat n), c < 0x80 := by decide +kernel
  have hn : b.toNat < 128 := by simpa using UInt8.lt_iff_toNat_lt.mp hb
  simpa using hall b.toNat hn

theorem escape_high {b : UInt8} (hb : ¬ b < 0x80) : escape b = [b] := by
  have hne : ∀ c : UInt8, c < 0x80 → b ≠ c := fun c hc he => hb (he ▸ hc)
  have hctl : ¬ b < 0x20 := fun h => hb (UInt8.lt_trans h (by decide))
  simp only [escape, hne 0x22 (by decide), hne 0x5C (by decide), hne 0x08 (by decide),
    hne 0x09 (by decide), hne 0x0A (by decide), hne 0x0C (by decide), hne 0x0D (by decide), hctl,
    ↓reduceIte]

/-- Escaping changes ASCII bytes into ASCII text and leaves the others, so the
decoder passes through the same states. -/
theorem utf8Run_dumpChars {s : Bytes} {q r : Utf8State} (hq : q.high)
    (h : utf8Run q s = some r) : utf8Run q (dumpChars s) = utf8Run r [0x22] := by
  induction s generalizing q with
  | nil => cases h; rfl
  | cons b s ih =>
    rw [utf8Run] at h
    obtain ⟨q', hstep, hrun⟩ := Option.bind_eq_some_iff.mp h
    rw [dumpChars, utf8Run_append]
    by_cases hb : b < 0x80
    · obtain ⟨rfl, rfl⟩ := utf8Step_ascii hq hb hstep
      have he : utf8Run .start (escape b) = some .start := by
        simpa [validUtf8] using validUtf8_ascii (escape_ascii hb)
      rw [he]
      exact ih rfl hrun
    · rw [escape_high hb, utf8Run, hstep]
      exact ih (utf8Step_high hq hstep) hrun

theorem validUtf8_dumpChars {s : Bytes} (hs : validUtf8 s) : validUtf8 (dumpChars s) := by
  simp only [validUtf8, decide_eq_true_eq] at hs ⊢
  rw [utf8Run_dumpChars rfl hs]
  rfl

theorem validUtf8_cons {b : UInt8} (hb : b < 0x80) {s : Bytes} (hs : validUtf8 s) :
    validUtf8 (b :: s) :=
  validUtf8_append (a := [b]) (validUtf8_ascii (by simpa using hb)) hs

theorem validUtf8_dumpNat (n : Nat) : validUtf8 (dumpNat n) := by
  refine validUtf8_ascii fun b hb => ?_
  have h := dumpNat_isDigit n b hb
  simp only [isDigit, Bool.and_eq_true, decide_eq_true_eq] at h
  exact UInt8.lt_of_le_of_lt h.2 (by decide)

theorem validUtf8_dumpInt (n : Int) : validUtf8 (dumpInt n) := by
  cases n with
  | ofNat n => exact validUtf8_dumpNat n
  | negSucc n => exact validUtf8_cons (by decide) (validUtf8_dumpNat _)

theorem validUtf8_member {k t : Bytes} (hk : validUtf8 k) (ht : validUtf8 t) :
    validUtf8 (0x22 :: (dumpChars k ++ 0x3A :: t)) :=
  validUtf8_cons (by decide)
    (validUtf8_append (validUtf8_dumpChars hk) (validUtf8_cons (by decide) ht))

mutual
theorem validUtf8_dumpText {j : Json} (hu : j.utf8) : validUtf8 (dumpText j) := by
  match j with
  | .null => rw [dumpText]; decide +kernel
  | .bool true => rw [dumpText]; decide +kernel
  | .bool false => rw [dumpText]; decide +kernel
  | .int n => rw [dumpText]; exact validUtf8_dumpInt n
  | .float bits => rw [dumpText]; exact validUtf8_append (validUtf8_dumpNat _) (by decide)
  | .str s => rw [dumpText]; exact validUtf8_cons (by decide) (validUtf8_dumpChars hu)
  | .arr [] => rw [dumpText]; decide +kernel
  | .arr (x :: xs) =>
    simp only [utf8, utf8List, Bool.and_eq_true] at hu
    rw [dumpText]
    exact validUtf8_cons (by decide)
      (validUtf8_append (validUtf8_dumpText hu.1) (validUtf8_dumpTail hu.2))
  | .obj [] => rw [dumpText]; decide +kernel
  | .obj ((k, x) :: fs) =>
    simp only [utf8, utf8Fields, Bool.and_eq_true] at hu
    rw [dumpText]
    exact validUtf8_cons (by decide) (validUtf8_member hu.1.1
      (validUtf8_append (validUtf8_dumpText hu.1.2) (validUtf8_dumpFields hu.2)))
theorem validUtf8_dumpTail {xs : List Json} (hu : utf8List xs) : validUtf8 (dumpTail xs) := by
  match xs with
  | [] => rw [dumpTail]; decide +kernel
  | x :: xs =>
    simp only [utf8List, Bool.and_eq_true] at hu
    rw [dumpTail]
    exact validUtf8_cons (by decide)
      (validUtf8_append (validUtf8_dumpText hu.1) (validUtf8_dumpTail hu.2))
theorem validUtf8_dumpFields {fs : List (Bytes × Json)} (hu : utf8Fields fs) :
    validUtf8 (dumpFields fs) := by
  match fs with
  | [] => rw [dumpFields]; decide +kernel
  | (k, x) :: fs =>
    simp only [utf8Fields, Bool.and_eq_true] at hu
    rw [dumpFields]
    exact validUtf8_cons (by decide) (validUtf8_member hu.1.1
      (validUtf8_append (validUtf8_dumpText hu.1.2) (validUtf8_dumpFields hu.2)))
end

theorem dump_utf8 {j : Json} {t : Bytes} (h : dump j = some t) : validUtf8 t := by
  unfold dump at h
  split at h
  · next hu => cases h; exact validUtf8_dumpText hu
  · cases h

/-! ## The text has no control bytes -/

def Printable (t : Bytes) : Prop := ∀ b ∈ t, 0x20 ≤ b

theorem Printable.append {a b : Bytes} (ha : Printable a) (hb : Printable b) : Printable (a ++ b) :=
  fun c hc => (List.mem_append.mp hc).elim (ha c) (hb c)

theorem Printable.cons {b : UInt8} (hb : 0x20 ≤ b) {t : Bytes} (ht : Printable t) :
    Printable (b :: t) :=
  fun c hc => (List.mem_cons.mp hc).elim (fun h => h ▸ hb) (ht c)

instance (t : Bytes) : Decidable (Printable t) := inferInstanceAs (Decidable (∀ b ∈ t, 0x20 ≤ b))

theorem printable_escape (b : UInt8) : Printable (escape b) := by
  by_cases hb : b < 0x80
  · have hall : ∀ n < 128, Printable (escape (UInt8.ofNat n)) := by decide +kernel
    have hn : b.toNat < 128 := by simpa using UInt8.lt_iff_toNat_lt.mp hb
    simpa using hall b.toNat hn
  · rw [escape_high hb]
    intro c hc
    cases List.mem_singleton.mp hc
    exact UInt8.le_trans (by decide) (UInt8.not_lt.mp hb)

theorem printable_dumpChars (s : Bytes) : Printable (dumpChars s) := by
  induction s with
  | nil => decide +kernel
  | cons b s ih => exact (printable_escape b).append ih

theorem printable_dumpNat (n : Nat) : Printable (dumpNat n) := by
  intro b hb
  have h := dumpNat_isDigit n b hb
  simp only [isDigit, Bool.and_eq_true, decide_eq_true_eq] at h
  exact UInt8.le_trans (by decide) h.1

theorem printable_dumpInt (n : Int) : Printable (dumpInt n) := by
  cases n with
  | ofNat n => exact printable_dumpNat n
  | negSucc n => exact (printable_dumpNat _).cons (by decide)

theorem printable_member (k : Bytes) {t : Bytes} (ht : Printable t) :
    Printable (0x22 :: (dumpChars k ++ 0x3A :: t)) :=
  ((printable_dumpChars k).append (ht.cons (by decide))).cons (by decide)

mutual
theorem printable_dumpText (j : Json) : Printable (dumpText j) := by
  match j with
  | .null => rw [dumpText]; decide +kernel
  | .bool true => rw [dumpText]; decide +kernel
  | .bool false => rw [dumpText]; decide +kernel
  | .int n => rw [dumpText]; exact printable_dumpInt n
  | .float bits => rw [dumpText]; exact (printable_dumpNat _).append (by decide +kernel)
  | .str s => rw [dumpText]; exact (printable_dumpChars s).cons (by decide)
  | .arr [] => rw [dumpText]; decide +kernel
  | .arr (x :: xs) =>
    rw [dumpText]
    exact ((printable_dumpText x).append (printable_dumpTail xs)).cons (by decide)
  | .obj [] => rw [dumpText]; decide +kernel
  | .obj ((k, x) :: fs) =>
    rw [dumpText]
    exact (printable_member k
      ((printable_dumpText x).append (printable_dumpFields fs))).cons (by decide)
theorem printable_dumpTail (xs : List Json) : Printable (dumpTail xs) := by
  match xs with
  | [] => rw [dumpTail]; decide +kernel
  | x :: xs =>
    rw [dumpTail]
    exact ((printable_dumpText x).append (printable_dumpTail xs)).cons (by decide)
theorem printable_dumpFields (fs : List (Bytes × Json)) : Printable (dumpFields fs) := by
  match fs with
  | [] => rw [dumpFields]; decide +kernel
  | (k, x) :: fs =>
    rw [dumpFields]
    exact (printable_member k
      ((printable_dumpText x).append (printable_dumpFields fs))).cons (by decide)
end

theorem dump_printable {j : Json} {t : Bytes} (h : dump j = some t) : ∀ b ∈ t, 0x20 ≤ b := by
  unfold dump at h
  split at h
  · cases h; exact printable_dumpText j
  · cases h

theorem dump_isSome (j : Json) : (dump j).isSome = j.utf8 := by
  unfold dump
  split
  · next hu => exact hu.symm
  · next hu => simpa using hu

/-- The contract has a model. -/
theorem codec_lawful : codec.Lawful where
  parse_nil := rfl
  parse_canon h := (parse_good h).1
  parse_utf8 h := (parse_good h).2
  dump_isSome := dump_isSome
  dump_utf8 := dump_utf8
  dump_printable := dump_printable
  parse_dump := parse_dump

end MyChat.JsonText
