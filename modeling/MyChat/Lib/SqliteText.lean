import MyChat.Lib.SqlText

/-! A row of integers and string literals as standard SQL reads it: a quote ends
a literal unless it is doubled, and no other character is special. -/

namespace MyChat.SqliteText
open SqlText (quote Value valueText rowText natural Ends)

/-- What the bytes between two quotes denote, unless a quote among them ends the
literal. -/
def denotes : Bytes → Option Bytes
  | [] => some []
  | [c] => if c = quote then none else some [c]
  | c :: d :: s =>
      if c = quote then
        if d = quote then (denotes s).map (quote :: ·) else none
      else (denotes (d :: s)).map (c :: ·)

/-- Behind the opening quote: the text denoted and what follows the closing
quote. -/
def literal : Bytes → Option (Bytes × Bytes)
  | [] => none
  | [c] => if c = quote then some ([], []) else none
  | c :: d :: s =>
      if c = quote then
        if d = quote then (literal s).map fun p => (quote :: p.1, p.2) else some ([], d :: s)
      else (literal (d :: s)).map fun p => (c :: p.1, p.2)

/-- What is behind the text `p`. -/
def after (p s : Bytes) : Option Bytes :=
  if s.take p.length = p then some (s.drop p.length) else none

def value : Bytes → Option (Value × Bytes)
  | [] => none
  | c :: s =>
      if c = quote then (literal s).map fun p => (.str p.1, p.2)
      else if c = 0x2D then (natural s).map fun p => (.int (-(p.1 : Int)), p.2)
      else (natural (c :: s)).map fun p => (.int p.1, p.2)

/-- As many values as there are columns, with a comma and a space between. -/
def columns : Nat → Bytes → Option (List Value × Bytes)
  | 0, _ => none
  | 1, s => (value s).map fun p => ([p.1], p.2)
  | n + 2, s => (value s).bind fun p => (after [0x2C, 0x20] p.2).bind fun r =>
      (columns (n + 1) r).map fun q => (p.1 :: q.1, q.2)

/-- A row behind the text `head`, up to its closing bracket. -/
def row (head : Bytes) (n : Nat) (s : Bytes) : Option (List Value × Bytes) :=
  (after head s).bind fun s => (columns n s).bind fun p => (after [0x29] p.2).map fun r => (p.1, r)

/-- The value that a written one is read as. -/
def meaning : Value → Option Value
  | .int n => some (.int n)
  | .str s => (denotes s).map .str

/-! ## Literals -/

theorem denotes_of_not_mem {s : Bytes} (h : quote ∉ s) : denotes s = some s := by
  induction s using denotes.induct with
  | case1 => rfl
  | case2 => simp at h
  | case3 c hc => rw [denotes, if_neg hc]
  | case4 s ih => simp at h
  | case5 d s hd => simp at h
  | case6 c d s hc ih =>
    rw [denotes, if_neg hc, ih fun hd => h (List.mem_cons_of_mem c hd)]
    rfl

theorem denotes_length {s v : Bytes} (h : denotes s = some v) :
    v.length ≤ s.length ∧ (s.length ≤ v.length → quote ∉ s) := by
  induction s using denotes.induct generalizing v with
  | case1 => cases h; simp
  | case2 => simp [denotes] at h
  | case3 c hc =>
    rw [denotes, if_neg hc] at h
    cases h
    exact ⟨le_rfl, fun _ hq => hc (List.mem_singleton.mp hq).symm⟩
  | case4 s ih =>
    rw [denotes, if_pos rfl, if_pos rfl] at h
    obtain ⟨w, hw, rfl⟩ := Option.map_eq_some_iff.mp h
    have hle := (ih hw).1
    simp only [List.length_cons]
    exact ⟨by omega, fun hge => by omega⟩
  | case5 d s hd => simp [denotes, hd] at h
  | case6 c d s hc ih =>
    rw [denotes, if_neg hc] at h
    obtain ⟨w, hw, rfl⟩ := Option.map_eq_some_iff.mp h
    obtain ⟨hle, hfree⟩ := ih hw
    simp only [List.length_cons] at hle hfree ⊢
    refine ⟨by omega, fun hge hq => ?_⟩
    rcases List.mem_cons.mp hq with rfl | hq
    · exact hc rfl
    · exact hfree (by omega) hq

/-- A text stands for itself exactly when it has no quote. -/
theorem denotes_self_iff {s : Bytes} : denotes s = some s ↔ quote ∉ s :=
  ⟨fun h => (denotes_length h).2 le_rfl, denotes_of_not_mem⟩

theorem literal_append {c v r : Bytes} (h : denotes c = some v) (hr : r.head? ≠ some quote) :
    literal (c ++ quote :: r) = some (v, r) := by
  induction c using denotes.induct generalizing v with
  | case1 =>
    cases h
    cases r with
    | nil => rfl
    | cons d r =>
      have hd : d ≠ quote := by simpa using hr
      simp [literal, hd]
  | case2 => simp [denotes] at h
  | case3 c hc =>
    rw [denotes, if_neg hc] at h
    cases h
    cases r with
    | nil => simp [literal, hc]
    | cons d r =>
      have hd : d ≠ quote := by simpa using hr
      simp [literal, hc, hd]
  | case4 s ih =>
    rw [denotes, if_pos rfl, if_pos rfl] at h
    obtain ⟨w, hw, rfl⟩ := Option.map_eq_some_iff.mp h
    simp [literal, ih hw]
  | case5 d s hd => simp [denotes, hd] at h
  | case6 c d s hc ih =>
    rw [denotes, if_neg hc] at h
    obtain ⟨w, hw, rfl⟩ := Option.map_eq_some_iff.mp h
    have hi := ih hw
    simp only [List.cons_append] at hi
    simp [literal, hc, hi]

theorem literal_eq_some {t v r : Bytes} (h : literal t = some (v, r)) :
    ∃ c, t = c ++ quote :: r ∧ denotes c = some v ∧ r.head? ≠ some quote := by
  induction t using literal.induct generalizing v with
  | case1 => cases h
  | case2 =>
    rw [literal, if_pos rfl] at h
    cases h
    exact ⟨[], rfl, rfl, by simp⟩
  | case3 c hc => simp [literal, hc] at h
  | case4 s ih =>
    rw [literal, if_pos rfl, if_pos rfl] at h
    obtain ⟨⟨w, r'⟩, hl, heq⟩ := Option.map_eq_some_iff.mp h
    cases heq
    obtain ⟨c, rfl, hc, hr⟩ := ih hl
    exact ⟨quote :: quote :: c, rfl, by rw [denotes, if_pos rfl, if_pos rfl, hc]; rfl, hr⟩
  | case5 d s hd =>
    rw [literal, if_pos rfl, if_neg hd] at h
    cases h
    exact ⟨[], rfl, rfl, by simpa using hd⟩
  | case6 c d s hc ih =>
    rw [literal, if_neg hc] at h
    obtain ⟨⟨w, r'⟩, hl, heq⟩ := Option.map_eq_some_iff.mp h
    cases heq
    obtain ⟨t, ht, hw, hr⟩ := ih hl
    refine ⟨c :: t, by rw [ht]; rfl, ?_, hr⟩
    cases t with
    | nil => cases hw; rw [denotes, if_neg hc]
    | cons e t => rw [denotes, if_neg hc, hw]; rfl

/-- A literal closes where its text ends at the latest, when no quote follows
there. It is as long as the text only if that has no quote. -/
theorem literal_bound {s t v r : Bytes} (ht : quote ∉ t)
    (h : literal (s ++ quote :: t) = some (v, r)) :
    v.length ≤ s.length ∧ (s.length ≤ v.length → quote ∉ s) := by
  obtain ⟨c, hc, hden, -⟩ := literal_eq_some h
  obtain ⟨hle, hfree⟩ := denotes_length hden
  have hclose : c.length ≤ s.length := by
    by_contra hlt
    have hget := congrArg (·[c.length]?) hc
    obtain ⟨k, hk⟩ : ∃ k, c.length - s.length = k + 1 := ⟨c.length - s.length - 1, by omega⟩
    simp only [List.getElem?_append_right (Nat.le_refl _),
      List.getElem?_append_right (show s.length ≤ c.length by omega), Nat.sub_self,
      List.getElem?_cons_zero, hk, List.getElem?_cons_succ] at hget
    exact ht (List.mem_of_getElem? hget)
  refine ⟨hle.trans hclose, fun hge => ?_⟩
  obtain ⟨rfl, -⟩ := List.append_inj hc (by omega)
  exact hfree (by omega)

/-! ## Reading more text -/

theorem after_eq_some_iff {p s r : Bytes} : after p s = some r ↔ s = p ++ r := by
  unfold after
  constructor
  · intro h
    split at h
    · next htake =>
      cases h
      have hparts := List.take_append_drop p.length s
      rw [htake] at hparts
      exact hparts.symm
    · cases h
  · rintro rfl
    simp

theorem after_extend {p s r : Bytes} (h : after p s = some r) (x : Bytes) :
    after p (s ++ x) = some (r ++ x) := by
  rw [after_eq_some_iff] at h ⊢
  rw [h, List.append_assoc]

theorem natural_extend {s r : Bytes} {n : Nat} (h : natural s = some (n, r)) (hr : r ≠ [])
    (x : Bytes) :
    natural (s ++ x) = some (n, r ++ x) := by
  unfold SqlText.natural at h ⊢
  split at h
  · cases h
  · next hne =>
    simp only [Option.some.injEq, Prod.mk.injEq] at h
    obtain ⟨hn, hrest⟩ := h
    have hlen := congrArg List.length (List.takeWhile_append_dropWhile (p := isDigit) (l := s))
    have hpos := List.length_pos_of_ne_nil hr
    rw [List.length_append, hrest] at hlen
    have htake : (s ++ x).takeWhile isDigit = s.takeWhile isDigit := by
      rw [List.takeWhile_append, if_neg (by omega)]
    have hdrop : (s ++ x).dropWhile isDigit = r ++ x := by
      rw [List.dropWhile_append, hrest, if_neg (by simpa using hr)]
    rw [htake, hdrop, if_neg hne, hn]

theorem literal_extend {s v r : Bytes} (h : literal s = some (v, r)) (hr : r ≠ []) (x : Bytes) :
    literal (s ++ x) = some (v, r ++ x) := by
  obtain ⟨c, rfl, hc, hhead⟩ := literal_eq_some h
  rw [List.append_assoc, List.cons_append]
  refine literal_append hc ?_
  cases r with
  | nil => exact absurd rfl hr
  | cons d r => exact hhead

theorem value_extend {s r : Bytes} {v : Value} (h : value s = some (v, r)) (hr : r ≠ [])
    (x : Bytes) :
    value (s ++ x) = some (v, r ++ x) := by
  cases s with
  | nil => cases h
  | cons c s =>
    rw [value] at h
    rw [List.cons_append, value]
    split at h
    · next hq =>
      obtain ⟨⟨w, r'⟩, hl, heq⟩ := Option.map_eq_some_iff.mp h
      cases heq
      rw [if_pos hq, literal_extend hl hr x]
      rfl
    · next hq =>
      split at h
      · next hm =>
        obtain ⟨⟨n, r'⟩, hn, heq⟩ := Option.map_eq_some_iff.mp h
        cases heq
        rw [if_neg hq, if_pos hm, natural_extend hn hr x]
        rfl
      · next hm =>
        obtain ⟨⟨n, r'⟩, hn, heq⟩ := Option.map_eq_some_iff.mp h
        cases heq
        rw [if_neg hq, if_neg hm, ← List.cons_append, natural_extend hn hr x]
        rfl

theorem columns_extend {n : Nat} {s r : Bytes} {vs : List Value} (h : columns n s = some (vs, r))
    (hr : r ≠ []) (x : Bytes) : columns n (s ++ x) = some (vs, r ++ x) := by
  induction n, s using columns.induct generalizing vs with
  | case1 => cases h
  | case2 s =>
    obtain ⟨⟨v, r'⟩, hv, heq⟩ := Option.map_eq_some_iff.mp h
    cases heq
    rw [columns, value_extend hv hr x]
    rfl
  | case3 n s ih =>
    obtain ⟨⟨v, r₁⟩, hv, h⟩ := Option.bind_eq_some_iff.mp h
    obtain ⟨r₂, ha, h⟩ := Option.bind_eq_some_iff.mp h
    obtain ⟨⟨ws, r₃⟩, hc, heq⟩ := Option.map_eq_some_iff.mp h
    cases heq
    have hne : r₁ ≠ [] := by
      rintro rfl
      rw [after_eq_some_iff] at ha
      cases ha
    rw [columns, value_extend hv hne x, Option.bind_some, after_extend ha x, Option.bind_some,
      ih _ hc]
    rfl

/-- A row that is read stays read when more text follows. -/
theorem row_extend {head s r : Bytes} {n : Nat} {vs : List Value} (h : row head n s = some (vs, r))
    (x : Bytes) : row head n (s ++ x) = some (vs, r ++ x) := by
  obtain ⟨s', ha, h⟩ := Option.bind_eq_some_iff.mp h
  obtain ⟨⟨ws, r'⟩, hc, h⟩ := Option.bind_eq_some_iff.mp h
  obtain ⟨r'', hb, heq⟩ := Option.map_eq_some_iff.mp h
  cases heq
  have hne : r' ≠ [] := by
    rintro rfl
    rw [after_eq_some_iff] at hb
    cases hb
  rw [row, after_extend ha x, Option.bind_some, columns_extend hc hne x, Option.bind_some,
    after_extend hb x]
  rfl

/-! ## Reading what was written -/

theorem value_valueText {v w : Value} (h : meaning v = some w) {r : Bytes} (hr : Ends r) :
    value (valueText v ++ r) = some (w, r) := by
  cases v with
  | str s =>
    obtain ⟨t, ht, rfl⟩ := Option.map_eq_some_iff.mp h
    have hq : r.head? ≠ some quote := fun hh => (hr _ hh).2 rfl
    have happ : valueText (.str s) ++ r = quote :: (s ++ quote :: r) := by simp [SqlText.valueText]
    rw [happ, value, if_pos rfl, literal_append ht hq]
    rfl
  | int n =>
    cases h
    cases n with
    | ofNat n =>
      obtain ⟨b, t, hb, hd⟩ := dumpNat_cons n
      obtain ⟨-, hquote, hminus⟩ := SqlText.isDigit_bounds hd
      have hn := SqlText.natural_dumpNat n hr
      rw [hb, List.cons_append] at hn
      rw [SqlText.valueText, dumpInt, hb, List.cons_append, value, if_neg hquote, if_neg hminus, hn]
      rfl
    | negSucc n =>
      have hn := SqlText.natural_dumpNat (n + 1) hr
      rw [SqlText.valueText, dumpInt, List.cons_append, value, if_neg (by decide), if_pos rfl, hn]
      rfl

theorem columns_rowText {vs ws : List Value} (hne : vs ≠ [])
    (h : List.Forall₂ (meaning · = some ·) vs ws) {r : Bytes} (hr : Ends r) :
    columns vs.length (rowText vs ++ r) = some (ws, r) := by
  induction vs using SqlText.rowText.induct generalizing ws with
  | case1 => exact absurd rfl hne
  | case2 v =>
    obtain ⟨w, ws, hv, htail, rfl⟩ := List.forall₂_cons_left_iff.mp h
    cases htail
    rw [List.length_singleton, SqlText.rowText, columns, value_valueText hv hr]
    rfl
  | case3 v u vs ih =>
    obtain ⟨w, ws, hv, htail, rfl⟩ := List.forall₂_cons_left_iff.mp h
    have hi := ih (by simp) htail
    have hcomma : Ends (0x2C :: 0x20 :: (rowText (u :: vs) ++ r)) := by
      intro b hb
      cases hb
      decide
    have hafter : after [0x2C, 0x20] (0x2C :: 0x20 :: (rowText (u :: vs) ++ r)) =
        some (rowText (u :: vs) ++ r) := after_eq_some_iff.mpr rfl
    simp only [List.length_cons] at hi ⊢
    simp only [SqlText.rowText, List.append_assoc, List.cons_append, columns,
      value_valueText hv hcomma, Option.bind_some, hafter, hi, Option.map_some]

theorem row_rowText (head : Bytes) {vs ws : List Value} (hne : vs ≠ [])
    (h : List.Forall₂ (meaning · = some ·) vs ws) (r : Bytes) :
    row head vs.length (head ++ (rowText vs ++ 0x29 :: r)) = some (ws, r) := by
  have hclose : Ends (0x29 :: r) := by
    intro b hb
    cases hb
    decide
  have hbracket : after [0x29] (0x29 :: r) = some r := after_eq_some_iff.mpr rfl
  rw [row, after_eq_some_iff.mpr rfl, Option.bind_some, columns_rowText hne h hclose,
    Option.bind_some, hbracket]
  rfl

theorem columns_int {n : Nat} {a : Int} {s r : Bytes} {vs : List Value}
    (h : columns (n + 2) (valueText (.int a) ++ 0x2C :: 0x20 :: s) = some (vs, r)) :
    ∃ ws, vs = .int a :: ws ∧ columns (n + 1) s = some (ws, r) := by
  have hcomma : Ends (0x2C :: 0x20 :: s) := by
    intro b hb
    cases hb
    decide
  have hafter : after [0x2C, 0x20] (0x2C :: 0x20 :: s) = some s := after_eq_some_iff.mpr rfl
  rw [columns, value_valueText rfl hcomma, Option.bind_some, hafter, Option.bind_some] at h
  obtain ⟨⟨ws, r'⟩, hc, heq⟩ := Option.map_eq_some_iff.mp h
  cases heq
  exact ⟨ws, rfl, hc⟩

theorem columns_str {n : Nat} {s t r : Bytes} {vs : List Value} (ht : quote ∉ t)
    (h : columns (n + 2) (valueText (.str s) ++ t) = some (vs, r)) :
    ∃ v ws, vs = .str v :: ws ∧ v.length ≤ s.length ∧ (s.length ≤ v.length → quote ∉ s) := by
  have happ : valueText (.str s) ++ t = quote :: (s ++ quote :: t) := by simp [SqlText.valueText]
  obtain ⟨⟨v, r₁⟩, hv, h⟩ := Option.bind_eq_some_iff.mp h
  obtain ⟨r₂, -, h⟩ := Option.bind_eq_some_iff.mp h
  obtain ⟨⟨ws, r₃⟩, -, heq⟩ := Option.map_eq_some_iff.mp h
  cases heq
  rw [happ, value, if_pos rfl] at hv
  obtain ⟨⟨w, r'⟩, hl, heq⟩ := Option.map_eq_some_iff.mp hv
  cases heq
  exact ⟨w, ws, rfl, literal_bound ht hl⟩

/-- A written row is not read before it is complete. -/
theorem row_incomplete {head : Bytes} {vs ws : List Value} (hne : vs ≠ [])
    (h : List.Forall₂ (meaning · = some ·) vs ws) {s x : Bytes} (hx : x ≠ [])
    (hs : s ++ x = head ++ (rowText vs ++ [0x29])) : row head vs.length s = none := by
  cases hr : row head vs.length s with
  | none => rfl
  | some p =>
    have hext := row_extend hr x
    rw [hs, row_rowText head hne h []] at hext
    have hnil := (Prod.mk.inj (Option.some.inj hext)).2
    exact absurd (List.append_eq_nil_iff.mp hnil.symm).2 hx

end MyChat.SqliteText
