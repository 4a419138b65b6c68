import SimpleInit.Fdisk.Script

/-!
# トークンの切り出し

script の partition 行を読む下請けの関数。どれもバッファ `b` と位置 `p` を受け取り、
書き換えたバッファと進めた位置を返す。

* `nextToken` — `next_token`。トークンの終わりに NUL を一つ書き、`*str` を区切りの後ろへ進める
* `isDefaultValue` — `is_default_value`。`-`、空欄、行末を「既定値」として読み飛ばす
* `nextString` — `next_string`。トークンを複製する（確保は成功するものとする）
* `skipOptionalSign` — `skip_optional_sign`

`next_token` の最初のループは、引用符の開閉を数えながら一文字ずつ進む。
ここではそれを、`p` から先の文字の列の上の構造的な再帰 `ntScan` で写す。

## 主な定理

* `next_token_bounded` — `next_token` は NUL の後ろを読まず、書くのはトークンの終わりの NUL 一つで、
  `*str` を真に進めて NUL を越えない
-/

namespace Fdisk

/-! ## `next_token` -/

/--
`next_token` の最初の `for` ループ。返すのは `(tk_begin, tk_end)`。

`tb` は `tk_begin`、`oq` は `open_quote`。`rest.headD '\x00'` が `*(p + 1)` である。
-/
def ntScan : List Char → Nat → Option Nat → Bool → Option Nat × Option Nat
  | [], _, tb, _ => (tb, none)
  | c :: rest, p, tb, oq =>
    if c = '\x00' then (tb, none)
    else if tb.isNone ∧ isBlank c then ntScan rest (p + 1) tb oq
    else
      let tb' := tb.getD (if c = '"' then p + 1 else p)
      let oq' := if c = '"' then !oq else oq
      if oq' then ntScan rest (p + 1) (some tb') oq'
      else if isBlank c || c == ',' || c == ';' || c == '"' then (some tb', some p)
      else if rest.headD '\x00' = '\x00' then (some tb', some (p + 1))
      else ntScan rest (p + 1) (some tb') oq'

/--
`next_token(&str)`。成功なら `(tk_begin, 書き換えたバッファ, 新しい *str)`、
`NULL` なら `none`（バッファも `*str` も変えない）。
-/
def nextToken (b : List Char) (p : Nat) : Option (Nat × List Char × Nat) :=
  match ntScan (b.drop p) p none false with
  | (some tb, some te) =>
    let e₀ := if peek b te = '"' then te + 1 else te
    let bl := isBlank (peek b e₀)
    let e₁ := if bl then skipBlank b e₀ else e₀
    let sep := peek b e₁ = ',' ∨ peek b e₁ = ';'
    let e₂ := if sep then e₁ + 1 else e₁
    if bl ∨ sep ∨ peek b e₁ = '\x00' then some (tb, poke b te '\x00', skipBlank b e₂)
    else none
  | _ => none

/-! ## 区切りまでの一つのトークン

`next_token` の補題は、空白の後にトークンの文字が並び、`,` か NUL で終わる形で述べる。
`,` で終わるトークンでは `,` を NUL にし、その後ろの空白を読み飛ばす。NUL で終わるトークンでは
バッファは変わらない。
-/

/-- トークンの中に置ける文字：空白、タブ、`,`、`;`、`"`、NUL のどれでもない。 -/
def tokenChar (c : Char) : Bool :=
  !isBlank c && c != ',' && c != ';' && c != '"' && c != '\x00'

theorem tokenChar_spec {c : Char} (h : tokenChar c = true) :
    c ≠ '\x00' ∧ isBlank c = false ∧ c ≠ ',' ∧ c ≠ ';' ∧ c ≠ '"' := by
  simp only [tokenChar, Bool.and_eq_true, Bool.not_eq_true', bne_iff_ne, ne_eq] at h
  exact ⟨h.2, h.1.1.1.1, h.1.1.1.2, h.1.1.2, h.1.2⟩

theorem ntScan_blanks : ∀ (bl r : List Char) (p : Nat) (oq : Bool), (∀ x ∈ bl, isBlank x = true) →
    ntScan (bl ++ r) p none oq = ntScan r (p + bl.length) none oq
  | [], _, _, _, _ => rfl
  | c :: bl, r, p, oq, h => by
    have hc := h c (List.mem_cons_self _ _)
    have hnul : c ≠ '\x00' := by rintro rfl; simp at hc
    rw [List.cons_append, ntScan, if_neg hnul, if_pos ⟨rfl, hc⟩,
      ntScan_blanks bl r (p + 1) oq fun x hx => h x (List.mem_cons_of_mem _ hx)]
    simp only [List.length_cons]
    congr 1
    omega

/-- トークンの文字を一つ読む。 -/
theorem ntScan_tokenChar {t : Char} (ht : tokenChar t = true) (rest : List Char) (q : Nat)
    (tb : Option Nat) :
    ntScan (t :: rest) q tb false =
      if rest.headD '\x00' = '\x00' then (some (tb.getD q), some (q + 1))
      else ntScan rest (q + 1) (some (tb.getD q)) false := by
  obtain ⟨hnul, hbl, hcomma, hsemi, hquote⟩ := tokenChar_spec ht
  simp [ntScan, hnul, hbl, hcomma, hsemi, hquote]

theorem ntScan_comma (r : List Char) (q tb : Nat) :
    ntScan (',' :: r) q (some tb) false = (some tb, some q) := by
  simp [ntScan, isBlank]

/-- トークンの文字を読み、`,` か NUL で止まる。 -/
theorem ntScan_word {c : Char} (hc : c = ',' ∨ c = '\x00') (r : List Char) :
    ∀ (ts : List Char) (t : Char) (q : Nat) (tb : Option Nat), tokenChar t = true →
      (∀ x ∈ ts, tokenChar x = true) →
      ntScan (t :: (ts ++ c :: r)) q tb false = (some (tb.getD q), some (q + 1 + ts.length))
  | [], t, q, tb, ht, _ => by
    rw [List.nil_append, ntScan_tokenChar ht]
    rcases hc with rfl | rfl
    · simp [ntScan_comma]
    · simp
  | t' :: ts, t, q, tb, ht, hts => by
    have ht' := hts t' (List.mem_cons_self _ _)
    rw [List.cons_append, ntScan_tokenChar ht, List.headD_cons, if_neg (tokenChar_spec ht').1,
      ntScan_word hc r ts t' (q + 1) _ ht' fun x hx => hts x (List.mem_cons_of_mem _ hx),
      Option.getD_some, List.length_cons]
    congr 2
    omega

/-- 空白の後の、`,` で終わるトークン。`,` を NUL にし、`,` の後の空白を読み飛ばす。 -/
theorem nextToken_comma {b : List Char} {p : Nat} {bl ts r : List Char} {t : Char}
    (h : b.drop p = bl ++ t :: (ts ++ ',' :: r)) (hbl : ∀ x ∈ bl, isBlank x = true)
    (ht : tokenChar t = true) (hts : ∀ x ∈ ts, tokenChar x = true) :
    nextToken b p = some (p + bl.length, poke b (p + bl.length + 1 + ts.length) '\x00',
      skipBlank b (p + bl.length + 1 + ts.length + 1)) := by
  have hscan : ntScan (b.drop p) p none false =
      (some (p + bl.length), some (p + bl.length + 1 + ts.length)) := by
    rw [h, ntScan_blanks _ _ _ _ hbl, ntScan_word (.inl rfl) r ts t _ none ht hts]
    rfl
  have hpe : peek b (p + bl.length + 1 + ts.length) = ',' := by
    have := @drop_add_of_drop b p (bl ++ t :: ts) (',' :: r) (by rw [h]; simp)
    simp only [List.length_append, List.length_cons] at this
    exact peek_of_drop (by rw [← this]; congr 1; omega)
  simp [nextToken, hscan, hpe, isBlank]

/-- 空白の後の、行末（NUL）で終わるトークン。バッファは変わらない。 -/
theorem nextToken_nul {b : List Char} {p : Nat} {bl ts r : List Char} {t : Char}
    (h : b.drop p = bl ++ t :: (ts ++ '\x00' :: r)) (hbl : ∀ x ∈ bl, isBlank x = true)
    (ht : tokenChar t = true) (hts : ∀ x ∈ ts, tokenChar x = true) :
    nextToken b p = some (p + bl.length, b, p + bl.length + 1 + ts.length) := by
  have hscan : ntScan (b.drop p) p none false =
      (some (p + bl.length), some (p + bl.length + 1 + ts.length)) := by
    rw [h, ntScan_blanks _ _ _ _ hbl, ntScan_word (.inr rfl) r ts t _ none ht hts]
    rfl
  have hd : b.drop (p + (bl ++ t :: ts).length) = '\x00' :: r :=
    @drop_add_of_drop b p (bl ++ t :: ts) ('\x00' :: r) (by rw [h]; simp)
  have he : p + (bl ++ t :: ts).length = p + bl.length + 1 + ts.length := by simp; omega
  rw [he] at hd
  have hpe : peek b (p + bl.length + 1 + ts.length) = '\x00' := peek_of_drop hd
  have hpoke : poke b (p + bl.length + 1 + ts.length) '\x00' = b := by
    have := @poke_of_drop b p (bl ++ t :: ts) r '\x00' (by rw [h]; simp)
    rwa [he] at this
  have hsk : skipBlank b (p + bl.length + 1 + ts.length) = p + bl.length + 1 + ts.length := by
    simpa using @skipBlank_of_drop b _ [] r '\x00' (by simpa using hd) (by simp) rfl
  simp [nextToken, hscan, hpe, hpoke, hsk]

/-! ## 読む範囲と書く場所

`*str` から NUL までの文字列 `l` の中で、`ntScan` の返す二つの位置は `*str` と NUL の間にある
（`ntScan_bounds`）。後半は閉じる引用符、空白、区切り、その後ろの空白を読み飛ばすだけで、どの位置も
NUL を越えない（`nextToken_tail_le`）。`*str` で止まるのは `,` か `;` のときだけなので、新しい
`*str` は真に進む（`ntScan_stop_start`、`nextToken_progress`）。
-/

theorem headD_append_nul (l r : List Char) :
    (l ++ '\x00' :: r).headD '\x00' = (l ++ ['\x00']).headD '\x00' := by
  cases l <;> rfl

/-- `ntScan` は NUL で止まり、その後ろを読まない。 -/
theorem ntScan_append_nul (r : List Char) : ∀ (l : List Char) (q : Nat) (tb : Option Nat) (oq : Bool),
    '\x00' ∉ l → ntScan (l ++ '\x00' :: r) q tb oq = ntScan (l ++ ['\x00']) q tb oq
  | [], _, _, _, _ => by simp [ntScan]
  | c :: l, q, tb, oq, hl => by
    have ih := ntScan_append_nul r l
    have hl' : '\x00' ∉ l := fun hm => hl (List.mem_cons_of_mem _ hm)
    rw [List.cons_append, List.cons_append, ntScan, ntScan]
    simp only [ih _ _ _ hl', headD_append_nul]

/-- `ntScan` の返す `tk_begin` と `tk_end` は、走査を始めた位置と NUL の間にある。 -/
theorem ntScan_bounds (r : List Char) : ∀ (l : List Char) (q : Nat) (tb : Option Nat) (oq : Bool)
    {tb' te : Nat}, '\x00' ∉ l → (∀ t, tb = some t → t ≤ q) → (oq = true → tb ≠ none) →
    ntScan (l ++ '\x00' :: r) q tb oq = (some tb', some te) →
    tb' ≤ te ∧ q ≤ te ∧ te ≤ q + l.length ∧ (tb = none → q ≤ tb') ∧ ∀ t, tb = some t → tb' = t
  | [], _, _, _, _, _, _, _, _, h => by simp [ntScan] at h
  | c :: l, q, tb, oq, tb', te, hl, htb, hoq, h => by
    have hc : c ≠ '\x00' := fun e => hl (e ▸ List.mem_cons_self _ _)
    have hl' : '\x00' ∉ l := fun hm => hl (List.mem_cons_of_mem _ hm)
    have hget : ∀ x, q ≤ x → tb.getD x ≤ x ∧ (tb = none → q ≤ tb.getD x) ∧
        ∀ t, tb = some t → tb.getD x = t := fun x hx => by
      cases tb with
      | none => simp; omega
      | some t => have := htb t rfl; simp; omega
    -- `tk_begin` を決めて次の文字へ進む
    have next : ∀ x oq', q ≤ x → x ≤ q + 1 →
        ntScan (l ++ '\x00' :: r) (q + 1) (some (tb.getD x)) oq' = (some tb', some te) →
        tb' ≤ te ∧ q ≤ te ∧ te ≤ q + (c :: l).length ∧ (tb = none → q ≤ tb') ∧
          ∀ t, tb = some t → tb' = t := fun x oq' hx hx' e => by
      obtain ⟨g₁, g₂, g₃⟩ := hget x hx
      obtain ⟨a₁, a₂, a₃, -, a₅⟩ := ntScan_bounds r l (q + 1) _ oq' hl'
        (fun t ht => by cases ht; omega) (by simp) e
      cases a₅ _ rfl
      simp only [List.length_cons]
      exact ⟨a₁, by omega, by omega, g₂, g₃⟩
    -- `,` などで止まる：`tk_end` はこの文字
    have stop : ∀ x, q ≤ x → tb.getD x ≤ q → tb' = tb.getD x → te = q →
        tb' ≤ te ∧ q ≤ te ∧ te ≤ q + (c :: l).length ∧ (tb = none → q ≤ tb') ∧
          ∀ t, tb = some t → tb' = t := by
      rintro x hx hle rfl rfl
      obtain ⟨-, g₂, g₃⟩ := hget x hx
      exact ⟨hle, le_rfl, by simp, g₂, g₃⟩
    rw [List.cons_append, ntScan, if_neg hc] at h
    by_cases hsk : tb.isNone ∧ isBlank c
    · rw [if_pos hsk] at h
      have hn : tb = none := Option.isNone_iff_eq_none.mp hsk.1
      obtain ⟨h₁, h₂, h₃, h₄, -⟩ := ntScan_bounds r l (q + 1) tb oq hl' (by simp [hn]) hoq h
      simp only [List.length_cons]
      exact ⟨h₁, by omega, by omega, fun _ => by have := h₄ hn; omega, fun t ht => by simp [hn] at ht⟩
    rw [if_neg hsk] at h
    by_cases hq : c = '"'
    · cases oq with
      | false => exact next (q + 1) true (by omega) le_rfl (by simpa [hq] using h)
      | true =>
        obtain ⟨t, rfl⟩ := Option.ne_none_iff_exists'.mp (hoq rfl)
        simp [hq, isBlank] at h
        exact stop (q + 1) (by omega) (htb t rfl) (by simp [h.1]) h.2.symm
    · simp only [hq, if_false] at h
      cases oq with
      | true => exact next q true le_rfl (by omega) h
      | false =>
        simp only [Bool.false_eq_true, if_false] at h
        split at h
        · simp only [Prod.mk.injEq, Option.some.injEq] at h
          exact stop q le_rfl (hget q le_rfl).1 h.1.symm h.2.symm
        split at h
        · simp only [Prod.mk.injEq, Option.some.injEq] at h
          obtain ⟨rfl, rfl⟩ := h
          obtain ⟨g₁, g₂, g₃⟩ := hget q le_rfl
          simp only [List.length_cons]
          exact ⟨by omega, by omega, by omega, g₂, g₃⟩
        · exact next q false le_rfl (by omega) h

/-- `ntScan` の返す `tk_end` は、走査を始めた位置より前に無い。 -/
theorem ntScan_ge {l : List Char} {q : Nat} {tb : Option Nat} {oq : Bool} {tb' : Option Nat} {te : Nat}
    (h : ntScan l q tb oq = (tb', some te)) : q ≤ te := by
  induction l, q, tb, oq using ntScan.induct with
  | case1 => simp [ntScan] at h
  | case2 => simp [ntScan] at h
  | case3 c rest p tb oq hc hb ih =>
    rw [ntScan, if_neg hc, if_pos hb] at h
    exact Nat.le_of_succ_le (ih h)
  | case4 c rest p tb oq hc hb tb' oq' hq ih =>
    rw [ntScan, if_neg hc, if_neg hb] at h
    exact Nat.le_of_succ_le (ih (by rwa [if_pos hq] at h))
  | case5 c rest p tb oq hc hb oq' hq hs =>
    rw [ntScan, if_neg hc, if_neg hb] at h
    simp only [oq'] at hq
    simp only [hq, hs, if_true, if_false, Bool.false_eq_true, Prod.mk.injEq, Option.some.injEq] at h
    omega
  | case6 c rest p tb oq hc hb oq' hq hs he =>
    rw [ntScan, if_neg hc, if_neg hb] at h
    simp only [oq'] at hq
    simp only [hq, hs, he, if_true, if_false, Bool.false_eq_true, Prod.mk.injEq, Option.some.injEq] at h
    omega
  | case7 c rest p tb oq hc hb tb' oq' hq hs he ih =>
    rw [ntScan, if_neg hc, if_neg hb] at h
    exact Nat.le_of_succ_le (ih (by rwa [if_neg hq, if_neg hs, if_neg he] at h))

/-- 最初の文字で止まるのは、それが `,` か `;` のときだけ。 -/
theorem ntScan_stop_start {c : Char} {l : List Char} {q tb' : Nat}
    (h : ntScan (c :: l) q none false = (some tb', some q)) : c = ',' ∨ c = ';' := by
  have past : ∀ tb oq, ntScan l (q + 1) tb oq ≠ (some tb', some q) := fun tb oq e => by
    have := ntScan_ge e; omega
  rw [ntScan] at h
  split at h
  · simp at h
  split at h
  · exact absurd h (past _ _)
  rename_i hb
  by_cases hq : c = '"'
  · simp only [hq, if_true, Bool.not_false] at h
    exact absurd h (past _ _)
  simp only [hq, if_false, Bool.false_eq_true] at h
  split at h
  · rename_i hs
    simp only [Option.isNone_none, true_and] at hb
    simpa [hb, hq] using hs
  split at h
  · simp at h
  · exact absurd h (past _ _)

/-- `next_token` がトークンを返せば、`*str` は真に進み、バッファの長さは変わらない。 -/
theorem nextToken_progress {b b' : List Char} {p tb p' : Nat} (h : nextToken b p = some (tb, b', p')) :
    p < p' ∧ b'.length = b.length := by
  unfold nextToken at h
  rcases hs : ntScan (b.drop p) p none false with ⟨_ | tb₀, _ | te⟩ <;> simp only [hs, reduceCtorEq] at h
  have hte := ntScan_ge hs
  generalize he₀ : (if peek b te = '"' then te + 1 else te) = e₀ at h
  generalize he₁ : (if isBlank (peek b e₀) = true then skipBlank b e₀ else e₀) = e₁ at h
  generalize he₂ : (if peek b e₁ = ',' ∨ peek b e₁ = ';' then e₁ + 1 else e₁) = e₂ at h
  split at h
  · simp only [Option.some.injEq, Prod.mk.injEq] at h
    obtain ⟨-, rfl, rfl⟩ := h
    refine ⟨?_, List.length_set _ _ _⟩
    have h₀ : te ≤ e₀ := he₀ ▸ by split <;> omega
    have h₁ : e₀ ≤ e₁ := he₁ ▸ by split <;> [exact skipBlank_ge b e₀; exact le_rfl]
    have h₂ : e₁ ≤ e₂ := he₂ ▸ by split <;> omega
    have h₃ := skipBlank_ge b e₂
    rcases Nat.lt_or_ge p te with hpt | hpt
    · omega
    -- `tk_end` が `*str` のままなら、最初の文字は区切りで、その後ろへ進む
    obtain rfl : te = p := by omega
    obtain ⟨c, l, hcl⟩ : ∃ c l, b.drop te = c :: l := by
      cases hd : b.drop te with
      | nil => rw [hd] at hs; simp [ntScan] at hs
      | cons c l => exact ⟨c, l, rfl⟩
    rw [hcl] at hs
    have hsep := ntScan_stop_start hs
    have hpk : peek b te = c := peek_of_drop hcl
    have hq : c ≠ '"' := by rcases hsep with rfl | rfl <;> decide
    have hb : isBlank c = false := by rcases hsep with rfl | rfl <;> rfl
    subst he₀ he₁ he₂
    simp only [hpk, hq, hb, if_false, Bool.false_eq_true, hsep, if_true] at h₃ ⊢
    omega
  · simp at h

/-- `next_token` の後半：閉じる引用符、空白、区切り、その後ろの空白を読み飛ばす。どの位置も NUL を越えない。 -/
theorem nextToken_tail_le {b : List Char} {p : Nat} {l r : List Char} (h : b.drop p = l ++ '\x00' :: r)
    {te : Nat} (hp : p ≤ te) (hz : te ≤ p + l.length) :
    let e₀ := if peek b te = '"' then te + 1 else te
    let e₁ := if isBlank (peek b e₀) then skipBlank b e₀ else e₀
    let e₂ := if peek b e₁ = ',' ∨ peek b e₁ = ';' then e₁ + 1 else e₁
    te ≤ e₀ ∧ e₀ ≤ e₁ ∧ e₁ ≤ e₂ ∧ e₂ ≤ skipBlank b e₂ ∧ skipBlank b e₂ ≤ p + l.length := by
  have hz' : peek b (p + l.length) = '\x00' := peek_of_drop (drop_add_of_drop h)
  have hlt : ∀ x, x ≤ p + l.length → peek b x ≠ '\x00' → x < p + l.length := fun x hx hn =>
    Nat.lt_of_le_of_ne hx fun e => hn (e ▸ hz')
  have hsk : ∀ x, p ≤ x → x ≤ p + l.length → skipBlank b x ≤ p + l.length := fun x h₁ h₂ => by
    have := skipBlank_le_of_drop (drop_of_drop_le h h₁ h₂); simp at this; omega
  intro e₀ e₁ e₂
  have h₀ : te ≤ e₀ ∧ e₀ ≤ p + l.length := by
    by_cases hq : peek b te = '"'
    · have := hlt te hz (by rw [hq]; decide); simp only [e₀, if_pos hq]; omega
    · simp only [e₀, if_neg hq]; omega
  have h₁ : e₀ ≤ e₁ ∧ e₁ ≤ p + l.length := by
    simp only [e₁]; split
    · exact ⟨skipBlank_ge b e₀, hsk e₀ (by omega) h₀.2⟩
    · exact ⟨le_rfl, h₀.2⟩
  have h₂ : e₁ ≤ e₂ ∧ e₂ ≤ p + l.length := by
    simp only [e₂]; split
    · rename_i hs
      have := hlt e₁ h₁.2 (by rcases hs with hs | hs <;> rw [hs] <;> decide); omega
    · exact ⟨le_rfl, h₁.2⟩
  exact ⟨h₀.1, h₁.1, h₂.1, skipBlank_ge b e₂, hsk e₂ (by omega) h₂.2⟩

/-- トークンを返すなら、先頭も新しい `*str` も `*str` と NUL の間にあり、`*str` は真に進み、
書くのは先頭から NUL までの一か所 `te` の NUL だけで、トークンはちょうど `te` の手前まで。 -/
theorem nextToken_bounds {b : List Char} {p : Nat} {l r : List Char} (h : b.drop p = l ++ '\x00' :: r)
    (hl : '\x00' ∉ l) {tb p' : Nat} {b' : List Char} (ht : nextToken b p = some (tb, b', p')) :
    p ≤ tb ∧ p < p' ∧ p' ≤ p + l.length ∧ ∃ te, tb ≤ te ∧ te ≤ p + l.length ∧ b' = poke b te '\x00' ∧
      cstr b' tb = (b.drop tb).take (te - tb) := by
  have hlt := (nextToken_progress ht).1
  unfold nextToken at ht
  rw [h] at ht
  rcases hs : ntScan (l ++ '\x00' :: r) p none false with ⟨_ | tb₀, _ | te⟩ <;> rw [hs] at ht <;>
    try simp at ht
  obtain ⟨h₁, h₂, h₃, h₄, -⟩ := ntScan_bounds r l p none false hl (by simp) (by simp) hs
  have h₄ := h₄ rfl
  have hc := nextToken_tail_le h h₂ h₃
  dsimp only at ht hc
  obtain ⟨-, -, -, -, c₄⟩ := hc
  obtain ⟨-, rfl, rfl, rfl⟩ := ht
  refine ⟨h₄, hlt, c₄, te, h₁, h₃, rfl, ?_⟩
  have hd := drop_of_drop_le h h₄ (by omega)
  obtain ⟨y, R', hy⟩ : ∃ y R', (l.drop (tb₀ - p)).drop (te - tb₀) ++ '\x00' :: r = y :: R' := by
    cases (l.drop (tb₀ - p)).drop (te - tb₀) with
    | nil => exact ⟨_, _, rfl⟩
    | cons y R' => exact ⟨y, _, rfl⟩
  have hk : ((l.drop (tb₀ - p)).take (te - tb₀)).length = te - tb₀ := by simp; omega
  have hd' : b.drop tb₀ = (l.drop (tb₀ - p)).take (te - tb₀) ++ y :: R' := by
    rw [hd, ← hy, ← List.append_assoc, List.take_append_drop]
  have hn : '\x00' ∉ (l.drop (tb₀ - p)).take (te - tb₀) := fun hm =>
    hl (List.mem_of_mem_drop (List.mem_of_mem_take hm))
  have hp := drop_poke_of_drop '\x00' hd'
  rw [hk, Nat.add_sub_cancel' h₁] at hp
  rw [cstr_of_drop hp hn, hd', List.take_left' hk]

/-- **`next_token` は NUL の後ろを読まない。** NUL で終わるバッファの後ろに何を足しても、結果は
同じトークン、同じ位置で、足した部分はそのまま残る。 -/
theorem nextToken_append_nul {b₀ : List Char} {p : Nat} {l : List Char} (h : b₀.drop p = l ++ ['\x00'])
    (hl : '\x00' ∉ l) (r : List Char) :
    nextToken (b₀ ++ r) p = (nextToken b₀ p).map fun t => (t.1, t.2.1 ++ r, t.2.2) := by
  have hlen : b₀.length = p + l.length + 1 := by
    have := congrArg List.length h; simp at this; omega
  have hpk : ∀ x, x ≤ p + l.length → peek (b₀ ++ r) x = peek b₀ x := fun x hx =>
    peek_append_of_lt r (by omega)
  have hsk : ∀ x, p ≤ x → x ≤ p + l.length → skipBlank (b₀ ++ r) x = skipBlank b₀ x := fun x h₁ h₂ =>
    skipBlank_append (drop_of_drop_le h h₁ h₂) r
  unfold nextToken
  rw [drop_append_nul h r, h, ntScan_append_nul r l p none false hl]
  rcases hs : ntScan (l ++ ['\x00']) p none false with ⟨_ | tb₀, _ | te⟩ <;> try rfl
  obtain ⟨-, h₂, h₃, -⟩ := ntScan_bounds [] l p none false hl (by simp) (by simp) hs
  have hc := nextToken_tail_le h h₂ h₃
  dsimp only at hc ⊢
  rw [hpk te h₃]
  generalize he₀ : (if peek b₀ te = '"' then te + 1 else te) = e₀ at hc ⊢
  obtain ⟨c₀, c₁, c₂, c₃, c₄⟩ := hc
  rw [hpk e₀ (by omega), hsk e₀ (by omega) (by omega)]
  generalize he₁ : (if isBlank (peek b₀ e₀) = true then skipBlank b₀ e₀ else e₀) = e₁ at c₁ c₂ c₃ c₄ ⊢
  rw [hpk e₁ (by omega)]
  generalize he₂ : (if peek b₀ e₁ = ',' ∨ peek b₀ e₁ = ';' then e₁ + 1 else e₁) = e₂ at c₂ c₃ c₄ ⊢
  rw [hsk e₂ (by omega) (by omega), poke, List.set_append_left _ _ (by omega)]
  split <;> rfl

/--
**`next_token` は NUL を越えて読まず、書くのはトークンの終わりの NUL 一つだけ。**

`*str` から NUL の手前までの文字列を `l`、NUL の後ろを `r` とする。`r` は結果に効かず、そのまま残る。
`NULL`（`none`）なら何も書かず、呼び出し側はバッファも `*str` もそのまま使う。トークンを返すなら、
その先頭は `*str` から後ろにあり、先頭から NUL までのどこか一か所 `te` に NUL を書き、トークンは
ちょうど先頭から `te` の手前までで、新しい `*str` は真に進んで NUL を越えない。
-/
theorem next_token_bounded {b₀ : List Char} {p : Nat} {l : List Char} (h : b₀.drop p = l ++ ['\x00'])
    (hl : '\x00' ∉ l) (r : List Char) :
    nextToken (b₀ ++ r) p = (nextToken b₀ p).map (fun t => (t.1, t.2.1 ++ r, t.2.2)) ∧
      ∀ tb b' p', nextToken (b₀ ++ r) p = some (tb, b', p') →
        p ≤ tb ∧ p < p' ∧ p' ≤ p + l.length ∧
          ∃ te, tb ≤ te ∧ te ≤ p + l.length ∧ b' = poke (b₀ ++ r) te '\x00' ∧
            cstr b' tb = ((b₀ ++ r).drop tb).take (te - tb) :=
  ⟨nextToken_append_nul h hl r, fun _ _ _ ht => nextToken_bounds (drop_append_nul h r) hl ht⟩

theorem next_token_bounded_sample :
    (("ab, c".toList ++ ['\x00']).drop 0 = "ab, c".toList ++ ['\x00'] ∧ '\x00' ∉ "ab, c".toList) ∧
      nextToken ("ab, c".toList ++ ['\x00'] ++ "xy".toList) 0 =
          (nextToken ("ab, c".toList ++ ['\x00']) 0).map (fun t => (t.1, t.2.1 ++ "xy".toList, t.2.2)) ∧
        ∀ tb b' p', nextToken ("ab, c".toList ++ ['\x00'] ++ "xy".toList) 0 = some (tb, b', p') →
          0 ≤ tb ∧ 0 < p' ∧ p' ≤ 0 + "ab, c".toList.length ∧
            ∃ te, tb ≤ te ∧ te ≤ 0 + "ab, c".toList.length ∧
              b' = poke ("ab, c".toList ++ ['\x00'] ++ "xy".toList) te '\x00' ∧
              cstr b' tb = (("ab, c".toList ++ ['\x00'] ++ "xy".toList).drop tb).take (te - tb) :=
  ⟨⟨rfl, by decide⟩, next_token_bounded rfl (by decide) _⟩

example : nextToken ("ab, c".toList ++ ['\x00']) 0 = some (0, "ab\x00 c\x00".toList, 4) := by decide

/-! ## 既定値、文字列、符号 -/

/-- `is_default_value(&str)`。1 を返すなら新しい `*str`、0 なら `none`（`*str` は変えない）。 -/
def isDefaultValue (b : List Char) (p : Nat) : Option Nat :=
  let p₀ := skipBlank b p
  let x := p₀ + 1
  let p₁ := if peek b p₀ = '-' then skipBlank b x else p₀
  let blank := peek b p₀ = '-' ∧ x < p₁
  if peek b p₁ = ';' ∨ peek b p₁ = ',' then some (p₁ + 1)
  else if peek b p₁ = '\x00' ∨ blank then some p₁
  else none

/-- `next_string(&s, &str)`：戻り値、複製した文字列、バッファ、新しい `*s`。 -/
def nextString (b : List Char) (p : Nat) : Int × Option (List Char) × List Char × Nat :=
  match nextToken b p with
  | some (tk, b', p') => (0, some (cstr b' tk), b', p')
  | none => (-EINVAL, none, b, p)

theorem nextString_of_nextToken {b b' : List Char} {p tk p' : Nat} (h : nextToken b p = some (tk, b', p')) :
    nextString b p = (0, some (cstr b' tk), b', p') := by
  simp only [nextString, h]

/-- `is_default_value` が 1 を返すなら、`*str` は戻らない。 -/
theorem isDefaultValue_ge {b : List Char} {p p' : Nat} (h : isDefaultValue b p = some p') : p ≤ p' := by
  unfold isDefaultValue at h
  dsimp only at h
  generalize hp₁ : (if peek b (skipBlank b p) = '-' then skipBlank b (skipBlank b p + 1)
    else skipBlank b p) = p₁ at h
  have h₀ : p ≤ p₁ := hp₁ ▸ by
    have := skipBlank_ge b p; have := skipBlank_ge b (skipBlank b p + 1); split <;> omega
  split_ifs at h <;> cases h <;> omega

/-- `next_string` は `*s` を戻さず、バッファの長さを変えない。 -/
theorem nextString_progress (b : List Char) (p : Nat) :
    p ≤ (nextString b p).2.2.2 ∧ (nextString b p).2.2.1.length = b.length := by
  unfold nextString
  split
  · next h => exact (nextToken_progress h).imp Nat.le_of_lt id
  · exact ⟨le_rfl, rfl⟩

/-- `skip_optional_sign(&str)`：符号（無ければ `none`）と新しい `*str`。 -/
def skipOptionalSign (b : List Char) (p : Nat) : Option Char × Nat :=
  let q := skipBlank b p
  if peek b q = '-' ∨ peek b q = '+' then (some (peek b q), q + 1) else (none, p)

/-! ## 数字のトークン -/

theorem isDigit_spec {c : Char} (h : isDigit c = true) :
    isBlank c = false ∧ c ≠ '-' ∧ c ≠ '+' ∧ c ≠ ',' ∧ c ≠ ';' ∧ c ≠ '"' ∧ c ≠ '\x00' := by
  have hb : isBlank c = false := by
    simp only [isBlank, Bool.or_eq_false_iff, beq_eq_false_iff_ne]
    exact ⟨ne_of_isDigit h (by decide), ne_of_isDigit h (by decide)⟩
  exact ⟨hb, ne_of_isDigit h (by decide), ne_of_isDigit h (by decide), ne_of_isDigit h (by decide),
    ne_of_isDigit h (by decide), ne_of_isDigit h (by decide), ne_of_isDigit h (by decide)⟩

theorem tokenChar_of_isDigit {c : Char} (h : isDigit c = true) : tokenChar c = true := by
  obtain ⟨hb, -, -, hc, hs, hq, hn⟩ := isDigit_spec h
  simp [tokenChar, hb, hc, hs, hq, hn]

theorem nul_not_mem_digits {s : List Char} (h : ∀ c ∈ s, isDigit c = true) : '\x00' ∉ s :=
  fun hm => absurd (h _ hm) (by decide)

/-- 空白の後に数字が来るなら、既定値ではない。 -/
theorem isDefaultValue_digit {b : List Char} {p : Nat} {bl r : List Char} {d : Char}
    (h : b.drop p = bl ++ d :: r) (hbl : ∀ x ∈ bl, isBlank x = true) (hd : isDigit d = true) :
    isDefaultValue b p = none := by
  obtain ⟨hb, hm, -, hc, hs, -, hn⟩ := isDigit_spec hd
  have hsk := skipBlank_of_drop h hbl hb
  have hpe : peek b (p + bl.length) = d := peek_of_drop (drop_add_of_drop h)
  simp [isDefaultValue, hsk, hpe, hm, hc, hs, hn]

/-- 数字の前に符号は無い。 -/
theorem skipOptionalSign_digit {b : List Char} {p : Nat} {r : List Char} {d : Char}
    (h : b.drop p = d :: r) (hd : isDigit d = true) : skipOptionalSign b p = (none, p) := by
  obtain ⟨hb, hm, hpl, -⟩ := isDigit_spec hd
  have hsk : skipBlank b p = p := by
    simpa using @skipBlank_of_drop b p [] r d (by simpa using h) (by simp) hb
  simp [skipOptionalSign, hsk, peek_of_drop h, hm, hpl]

end Fdisk
