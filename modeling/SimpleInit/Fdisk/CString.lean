import Mathlib.Data.List.Basic

/-!
# C の文字列

libfdisk の script parser は、NUL で終わる `char` の配列をポインタで歩き、途中に NUL を
書き込んでトークンを切り出す。ここではその配列を `List Char`、ポインタを添字で表す。

* `peek b p` — `*p`。配列の外は NUL を返す
* `cstr b p` — `p` から始まる C 文字列（最初の NUL の手前まで）
* `skipBlank` — util-linux の `skip_blank`
* `strchrAt` — `strchr`
* `strcasecmpEq` / `strncasecmpEq` — ASCII の大文字小文字を無視した比較

NUL の後ろに残っている byte も配列の一部として持つ。`fgets` は行を前から上書きするだけなので、
前の長い行の残りが NUL の後ろに残る。parser がそこまで読むかどうかは、
この表し方で初めて問える。
-/

namespace Fdisk

/-! ## 文字の分類 -/

/-- `isblank`。空白とタブ。 -/
def isBlank (c : Char) : Bool := c == ' ' || c == '\t'

/-- `isspace`（C locale）。 -/
def isSpace (c : Char) : Bool :=
  c == ' ' || c == '\t' || c == '\n' || c == '\x0b' || c == '\x0c' || c == '\r'

/-- `isdigit`。 -/
def isDigit (c : Char) : Bool := '0' ≤ c && c ≤ '9'

@[simp] theorem isBlank_nul : isBlank '\x00' = false := rfl

/-! ## バッファとポインタ -/

/-- `*p`。配列の外は NUL。 -/
def peek (b : List Char) (p : Nat) : Char := b.getD p '\x00'

/-- NUL でない文字は配列の中にある。 -/
theorem lt_length_of_peek_ne {b : List Char} {p : Nat} (h : peek b p ≠ '\x00') : p < b.length := by
  by_contra hp
  exact h (by simp [peek, List.getD_eq_getElem?_getD, List.getElem?_eq_none (Nat.le_of_not_lt hp)])

/-- `p` から始まる C 文字列。 -/
def cstr (b : List Char) (p : Nat) : List Char := (b.drop p).takeWhile (· != '\x00')

/-- util-linux の `skip_blank`：空白とタブを読み飛ばした位置。 -/
def skipBlank (b : List Char) (p : Nat) : Nat := p + ((b.drop p).takeWhile isBlank).length

/-- `strchr(p, c)`（`c` は NUL でない）。見つからなければ `none`。 -/
def strchrAt (b : List Char) (p : Nat) (c : Char) : Option Nat :=
  ((cstr b p).indexOf? c).map (p + ·)

/-- `*p = c`。 -/
def poke (b : List Char) (p : Nat) (c : Char) : List Char := b.set p c

/-- ASCII の大文字を小文字にした文字列。`strcasecmp` が比べるもの。 -/
def lower (s : List Char) : List Char := s.map Char.toLower

/-- `strcasecmp(a, b) == 0`。 -/
def strcasecmpEq (a b : List Char) : Bool := decide (lower a = lower b)

/-- `strncasecmp(p, key, strlen(key)) == 0`。`key` は NUL を含まない。 -/
def strncasecmpEq (b : List Char) (p : Nat) (key : List Char) : Bool :=
  decide (lower ((cstr b p).take key.length) = lower key)

/-- util-linux の `ltrim_whitespace` と `rtrim_whitespace` を続けて掛けた結果。 -/
def trimWhitespace (s : List Char) : List Char :=
  ((s.dropWhile isSpace).reverse.dropWhile isSpace).reverse

theorem strcasecmpEq_iff {a b : List Char} : strcasecmpEq a b = true ↔ lower a = lower b := by
  simp [strcasecmpEq]

theorem skipBlank_ge (b : List Char) (p : Nat) : p ≤ skipBlank b p := Nat.le_add_right _ _

/-- `skip_blank` の止まった所は空白でない。 -/
theorem isBlank_peek_skipBlank (b : List Char) (p : Nat) :
    isBlank (peek b (skipBlank b p)) = false := by
  unfold peek skipBlank
  induction b generalizing p with
  | nil => simp
  | cons c rest ih =>
    cases p with
    | zero =>
      by_cases hc : isBlank c = true
      · simpa [List.takeWhile_cons, hc, Nat.add_comm] using ih 0
      · simp [List.takeWhile_cons, hc]
    | succ p => simpa [Nat.add_right_comm] using ih p

/-- `isspace` でない文字は `isblank` でもない。 -/
theorem isBlank_eq_false {c : Char} (h : isSpace c = false) : isBlank c = false := by
  simp only [isSpace, Bool.or_eq_false_iff] at h
  simp [isBlank, h.1.1.1.1.1, h.1.1.1.1.2]

/-- 数字は、数字でない文字のどれとも違う。 -/
theorem ne_of_isDigit {c x : Char} (h : isDigit c = true) (hx : isDigit x = false) : c ≠ x := by
  rintro rfl
  rw [h] at hx
  exact Bool.noConfusion hx

theorem isSpace_of_isDigit {c : Char} (h : isDigit c = true) : isSpace c = false := by
  simp only [isSpace, Bool.or_eq_false_iff, beq_eq_false_iff_ne]
  exact ⟨⟨⟨⟨⟨ne_of_isDigit h rfl, ne_of_isDigit h rfl⟩, ne_of_isDigit h rfl⟩, ne_of_isDigit h rfl⟩,
    ne_of_isDigit h rfl⟩, ne_of_isDigit h rfl⟩

/-! ## NUL の手前に置いた文字列

`l ++ '\x00' :: t` の形のバッファ：`l` に NUL が無ければ、先頭からの C 文字列はちょうど `l` で、
`t` は読まれない。
-/

theorem takeWhile_append_nul {l : List Char} (hl : '\x00' ∉ l) (t : List Char) :
    (l ++ '\x00' :: t).takeWhile (· != '\x00') = l := by
  rw [List.takeWhile_append_of_pos]
  · simp
  · intro a ha
    simpa using fun h : a = '\x00' => hl (h ▸ ha)

/-- `l` の中から始まる C 文字列は `l` の残り。 -/
theorem cstr_nul {l : List Char} (hl : '\x00' ∉ l) (t : List Char) {k : Nat} (hk : k ≤ l.length) :
    cstr (l ++ '\x00' :: t) k = l.drop k := by
  unfold cstr
  rw [List.drop_append_of_le_length hk]
  exact takeWhile_append_nul (fun h => hl (List.mem_of_mem_drop h)) t

/-- `l` の次の一文字を越えた所から始まる C 文字列。 -/
theorem cstr_after (l : List Char) (x : Char) (r : List Char) :
    cstr (l ++ x :: r) (l.length + 1) = cstr r 0 := by
  rw [cstr, cstr, List.drop_append]
  rfl

theorem findIdx?_append_cons {p : Char → Bool} {l : List Char} (hl : ∀ x ∈ l, p x = false)
    {c : Char} (hc : p c = true) (r : List Char) (i : Nat) :
    List.findIdx? p (l ++ c :: r) i = some (i + l.length) := by
  induction l generalizing i with
  | nil => simp [List.findIdx?_cons, hc]
  | cons x l ih =>
    rw [List.cons_append, List.findIdx?_cons, if_neg (by simp [hl x (List.mem_cons_self _ _)]),
      ih (fun y hy => hl y (List.mem_cons_of_mem _ hy))]
    simp only [List.length_cons, Option.some.injEq]
    omega

theorem indexOf?_append_cons {c : Char} {l : List Char} (h : c ∉ l) (r : List Char) :
    (l ++ c :: r).indexOf? c = some l.length := by
  unfold List.indexOf?
  rw [findIdx?_append_cons (fun x hx => by simpa using fun e : x = c => h (e ▸ hx)) (by simp),
    Nat.zero_add]

/-- 先頭からの `strchr` は `l` の中だけを探す。 -/
theorem strchrAt_nul {l : List Char} (hl : '\x00' ∉ l) (t : List Char) (c : Char) :
    strchrAt (l ++ '\x00' :: t) 0 c = l.indexOf? c := by
  unfold strchrAt
  rw [cstr_nul hl t (Nat.zero_le _), List.drop_zero]
  cases l.indexOf? c <;> simp

theorem cstr_append_zero {l : List Char} (hn : '\x00' ∉ l) (r : List Char) :
    cstr (l ++ r) 0 = l ++ cstr r 0 := by
  rw [cstr, cstr, List.drop_zero, List.drop_zero, List.takeWhile_append_of_pos]
  intro a ha
  simpa using fun e : a = '\x00' => hn (e ▸ ha)

/-- NUL の手前で最初に現れる `c` を `strchr` は見つける。 -/
theorem strchrAt_append_cons {l : List Char} {c : Char} (hn : '\x00' ∉ l) (hc : c ∉ l) (hc0 : c ≠ '\x00')
    (r : List Char) : strchrAt (l ++ c :: r) 0 c = some l.length := by
  rw [strchrAt, cstr_append_zero hn, cstr, List.drop_zero, List.takeWhile_cons_of_pos (by simpa using hc0),
    indexOf?_append_cons hc]
  simp

/-- `l` に無い文字を `strchr` が見つけるなら、`l` より後ろにある。 -/
theorem strchrAt_append_ge {l : List Char} {c : Char} (hn : '\x00' ∉ l) (hc : c ∉ l) (r : List Char) :
    (strchrAt (l ++ r) 0 c).all (l.length ≤ ·) := by
  have hnone : l.findIdx? (· == c) = none :=
    List.findIdx?_eq_none_iff.mpr fun x hx => by simpa using fun e : x = c => hc (e ▸ hx)
  rw [strchrAt, cstr_append_zero hn, List.indexOf?, List.findIdx?_append, hnone]
  cases List.findIdx? (· == c) (cstr r 0) <;> simp

theorem poke_append_length (l : List Char) (x : Char) (t : List Char) (c : Char) :
    poke (l ++ x :: t) l.length c = l ++ c :: t := by
  simp [poke, List.set_append]

theorem peek_append_length (l : List Char) (x : Char) (t : List Char) :
    peek (l ++ x :: t) l.length = x := by
  induction l with
  | nil => rfl
  | cons a l ih => exact ih

/-! ## 位置から先の文字で言う

parser の補題は、バッファ `b` の位置 `p` から先が `b.drop p = l ++ r` の形だと分かっているときに
述べる。書いた行を読み直す証明は、行をこの形に切り分けて一つずつ進む。
-/

theorem peek_of_drop {b : List Char} {p : Nat} {c : Char} {r : List Char} (h : b.drop p = c :: r) :
    peek b p = c := by
  have : b[p]? = some c := by rw [← List.head?_drop, h]; rfl
  simp [peek, this]

theorem drop_add_of_drop {b : List Char} {p : Nat} {l r : List Char} (h : b.drop p = l ++ r) :
    b.drop (p + l.length) = r := by
  rw [← List.drop_drop, h, List.drop_left]

theorem skipBlank_of_drop {b : List Char} {p : Nat} {bl r : List Char} {c : Char}
    (h : b.drop p = bl ++ c :: r) (hbl : ∀ x ∈ bl, isBlank x = true) (hc : isBlank c = false) :
    skipBlank b p = p + bl.length := by
  rw [skipBlank, h, List.takeWhile_append_of_pos hbl, List.takeWhile_cons_of_neg (by simp [hc]),
    List.append_nil]

theorem cstr_of_drop {b : List Char} {p : Nat} {tok r : List Char} (h : b.drop p = tok ++ '\x00' :: r)
    (hn : '\x00' ∉ tok) : cstr b p = tok := by
  rw [cstr, h]
  exact takeWhile_append_nul hn r

/-- `p` より前に書いても、`p` から先は変わらない。 -/
theorem drop_poke_of_lt (b : List Char) {e p : Nat} (c : Char) (he : e < p) :
    (poke b e c).drop p = b.drop p := by
  rw [poke, List.drop_set, if_pos he]

theorem drop_poke_of_drop {b : List Char} {p : Nat} {l r : List Char} {x : Char} (c : Char)
    (h : b.drop p = l ++ x :: r) : (poke b (p + l.length) c).drop p = l ++ c :: r := by
  rw [poke, List.drop_set, if_neg (by omega), h, Nat.add_sub_cancel_left]
  simp [List.set_append]

/-- そこにある文字を書いても、バッファは変わらない。 -/
theorem poke_of_drop {b : List Char} {p : Nat} {l r : List Char} {x : Char}
    (h : b.drop p = l ++ x :: r) : poke b (p + l.length) x = b := by
  have hp : p ≤ b.length := by
    by_contra hc
    rw [List.drop_eq_nil_of_le (by omega)] at h
    simp at h
  have hb : b = (b.take p ++ l) ++ x :: r := by rw [List.append_assoc, ← h, List.take_append_drop]
  have hl : (b.take p ++ l).length = p + l.length := by simp [List.length_take, Nat.min_eq_left hp]
  calc poke b (p + l.length) x = poke ((b.take p ++ l) ++ x :: r) (b.take p ++ l).length x := by
        rw [hl, ← hb]
    _ = b := by rw [poke_append_length, ← hb]

theorem strncasecmpEq_of_drop {b : List Char} {p : Nat} {key r : List Char}
    (h : b.drop p = key ++ r) (hk : '\x00' ∉ key) : strncasecmpEq b p key = true := by
  have hc : cstr b p = key ++ r.takeWhile (· != '\x00') := by
    rw [cstr, h, List.takeWhile_append_of_pos]
    intro a ha
    simpa using fun e : a = '\x00' => hk (e ▸ ha)
  simp [strncasecmpEq, hc]

/-- 先頭の `pre` が `key` の先頭と大文字小文字を無視しても違えば、比較は偽。 -/
theorem strncasecmpEq_of_ne {b : List Char} {p : Nat} {pre r key : List Char}
    (h : b.drop p = pre ++ r) (hn : '\x00' ∉ pre) (hl : pre.length ≤ key.length)
    (hne : lower pre ≠ lower (key.take pre.length)) : strncasecmpEq b p key = false := by
  have hc : cstr b p = pre ++ r.takeWhile (· != '\x00') := by
    rw [cstr, h, List.takeWhile_append_of_pos]
    intro a ha
    simpa using fun e : a = '\x00' => hn (e ▸ ha)
  simp only [strncasecmpEq, hc, decide_eq_false_iff_not]
  intro he
  apply hne
  have := congrArg (List.take pre.length) he
  simp only [lower, ← List.map_take, List.take_take, Nat.min_eq_left hl, List.take_left'] at this
  simpa [lower] using this

theorem drop_of_drop_le {b : List Char} {p : Nat} {l r : List Char} (h : b.drop p = l ++ r) {x : Nat}
    (hx : p ≤ x) (hxl : x ≤ p + l.length) : b.drop x = l.drop (x - p) ++ r := by
  rw [show x = p + (x - p) by omega, ← List.drop_drop, h, List.drop_append_of_le_length (by omega),
    Nat.add_sub_cancel_left]

/-- NUL で終わる文字列の中から始まる `skip_blank` は、その NUL を越えない。 -/
theorem skipBlank_le_of_drop {b : List Char} {p : Nat} {l r : List Char}
    (h : b.drop p = l ++ '\x00' :: r) : skipBlank b p ≤ p + l.length := by
  have : ((l ++ '\x00' :: r).takeWhile isBlank).length ≤ l.length := by
    rw [List.takeWhile_append]
    split
    · simp
    · exact (List.takeWhile_prefix _).length_le
  rw [skipBlank, h]; omega

/-- NUL で終わるバッファの後ろに足した文字は、NUL の後ろに来る。 -/
theorem drop_append_nul {b₀ : List Char} {p : Nat} {l : List Char} (h : b₀.drop p = l ++ ['\x00'])
    (r : List Char) : (b₀ ++ r).drop p = l ++ '\x00' :: r := by
  have : p ≤ b₀.length := by have := congrArg List.length h; simp at this; omega
  rw [List.drop_append_of_le_length this, h]; simp

theorem peek_append_of_lt {b₀ : List Char} {x : Nat} (r : List Char) (hx : x < b₀.length) :
    peek (b₀ ++ r) x = peek b₀ x := by
  simp [peek, List.getD_eq_getElem?_getD, List.getElem?_append_left hx]

/-- NUL で終わるバッファの後ろに何を足しても、その中から始まる `skip_blank` は変わらない。 -/
theorem skipBlank_append {b₀ : List Char} {x : Nat} {l : List Char} (h : b₀.drop x = l ++ ['\x00'])
    (r : List Char) : skipBlank (b₀ ++ r) x = skipBlank b₀ x := by
  have hx : x ≤ b₀.length := by
    have := congrArg List.length h; simp at this; omega
  rw [skipBlank, skipBlank, List.drop_append_of_le_length hx, h, List.append_assoc, List.singleton_append,
    List.takeWhile_append, List.takeWhile_append]
  split <;> simp

/-! ## 空白類を除く -/

/-- 空白類を含まない文字列は、除いても変わらない。 -/
theorem trimWhitespace_of_plain {l : List Char} (h : ∀ c ∈ l, isSpace c = false) :
    trimWhitespace l = l := by
  have hd : ∀ l' : List Char, (∀ c ∈ l', isSpace c = false) → l'.dropWhile isSpace = l' := by
    intro l' h'
    cases l' with
    | nil => rfl
    | cons c l' => simp [List.dropWhile_cons, h' c (List.mem_cons_self _ _)]
  unfold trimWhitespace
  rw [hd l h, hd l.reverse (fun c hc => h c (List.mem_reverse.mp hc)), List.reverse_reverse]

theorem trimWhitespace_space (l : List Char) : trimWhitespace (' ' :: l) = trimWhitespace l := by
  simp [trimWhitespace, List.dropWhile_cons, isSpace]

/-- 除いても変わらない文字列の最後の文字は空白類でない。 -/
theorem trimWhitespace_getLast {l : List Char} (h : trimWhitespace l = l) {c : Char}
    (hc : l.getLast? = some c) : isSpace c = false := by
  have hd := List.head?_dropWhile_not isSpace (l.dropWhile isSpace).reverse
  rw [← h, trimWhitespace, List.getLast?_reverse] at hc
  rw [hc] at hd
  exact hd

end Fdisk
