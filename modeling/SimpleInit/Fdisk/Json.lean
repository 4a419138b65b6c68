import SimpleInit.Fdisk.Write

/-!
# JSON で書く

`write_file_json` を、util-linux の JSON writer `ul_jsonwrt` の呼び出しの列として写す。
`ul_jsonwrt` は `src/` に無い。文字列の writer は `"`、`\`、制御文字を escape し、`value_raw` は
渡された文字列をそのまま書くものとする（`JVal.render`）。writer の改行と字下げは JSON の
token の間の空白なので書かない。

呼び出しの列は、まず入れ子の木に組み上がり（`build`）、その木を文字に書く（`documentText`）。
書いた文字が正しい JSON かどうかは `jsonValueText` が決める。これは RFC 8259 の値の文法の
認識で、前後の空白を許す。

## 読む側の鍵

値を一つ読み終えたところの後ろに `,`、`]`、`}` で始まるものを足しても、同じところで
読み終える（`scan_append`）。これで、木を書いた文字は部分ごとに読める（`scanValue_render`）。

## 主な定理

* `build_writeFileJson` — 呼び出しの列は、`"partitiontable"` の object を一つ持つ root になる
* `scanValue_render` — そのまま書いた文字列がどれも JSON の値なら、書いた木は JSON の値として読める
* `write_file_json_well_formed` — 数としてそのまま書く三つの header の値が JSON の値なら、
  書かれた文書は正しい JSON
* `write_file_json_raw_header` — 読めた script でも、JSON でない文書が書かれる
-/

namespace Fdisk

/-! ## JSON の値の文字列 -/

/-- JSON の空白。 -/
def isJsonWs (c : Char) : Bool := c == ' ' || c == '\t' || c == '\n' || c == '\r'

/-- 先頭の JSON の空白を読み飛ばす。 -/
def skipWs (s : List Char) : List Char := s.dropWhile isJsonWs

/-- 十六進の数字。 -/
def isHexDigit (c : Char) : Bool := isDigit c || ('a' ≤ c && c ≤ 'f') || ('A' ≤ c && c ≤ 'F')

/-- 文字列の中の読む位置：ふつうの文字の間、`\` の後、`\u` の後でまだ `k + 1` 個の十六進の数字を待つところ。 -/
inductive StrState
  | plain
  | escape
  | hex (k : Nat)

/-- 文字列の中身を一文字ずつ読み、閉じの `"` の後ろを返す。 -/
def scanStr : StrState → List Char → Option (List Char)
  | _, [] => none
  | .plain, c :: r =>
    if c = '"' then some r
    else if c.toNat < 0x20 then none
    else if c = '\\' then scanStr .escape r
    else scanStr .plain r
  | .escape, c :: r =>
    if c = 'u' then scanStr (.hex 3) r
    else if c ∈ ['"', '\\', '/', 'b', 'f', 'n', 'r', 't'] then scanStr .plain r
    else none
  | .hex k, c :: r =>
    if isHexDigit c then scanStr (match k with | 0 => .plain | k + 1 => .hex k) r else none

/-- 文字列の中身：開きの `"` の後ろから、閉じの `"` の後ろまでを読む。 -/
def scanString (s : List Char) : Option (List Char) := scanStr .plain s

/-- `w` の文字がこの順に続けば、その後ろを返す。 -/
def scanWord : List Char → List Char → Option (List Char)
  | [], s => some s
  | c :: w, d :: s => if c = d then scanWord w s else none
  | _ :: _, [] => none

/-- 一つ以上の十進の数字。 -/
def scanDigits1 : List Char → Option (List Char)
  | c :: r => if isDigit c then some (r.dropWhile isDigit) else none
  | [] => none

/-- `-?`。 -/
def dropMinus : List Char → List Char
  | c :: r => if c = '-' then r else c :: r
  | [] => []

/-- int：`0 | [1-9][0-9]*`。 -/
def scanInt : List Char → Option (List Char)
  | c :: r => if c = '0' then some r else scanDigits1 (c :: r)
  | [] => none

/-- frac：`(. [0-9]+)?`。 -/
def scanFrac : List Char → Option (List Char)
  | c :: r => if c = '.' then scanDigits1 r else some (c :: r)
  | [] => some []

/-- exp の符号：`[+-]?`。 -/
def dropSign : List Char → List Char
  | c :: r => if c = '+' ∨ c = '-' then r else c :: r
  | [] => []

/-- exp：`([eE] [+-]? [0-9]+)?`。 -/
def scanExp : List Char → Option (List Char)
  | c :: r => if c = 'e' ∨ c = 'E' then scanDigits1 (dropSign r) else some (c :: r)
  | [] => some []

/-- number：`-? int frac exp`。 -/
def scanNumber (s : List Char) : Option (List Char) :=
  ((scanInt (dropMinus s)).bind scanFrac).bind scanExp

/-- `{` か `[` の後ろ：すぐ `close` で閉じれば後ろの空白も読み、そうでなければ中身を `f` で読む。 -/
def scanOpen (close : Char) (f : List Char → Option (List Char)) (r : List Char) : Option (List Char) :=
  if (skipWs r).head? = some close then some (skipWs (skipWs r).tail) else f (skipWs r)

/-- 要素か member の後ろ：`,` なら続きを `f` で読み、`close` なら閉じて後ろの空白も読む。 -/
def scanNext (close : Char) (f : List Char → Option (List Char)) : Option (List Char) → Option (List Char)
  | some (c :: r) => if c = ',' then f r else if c = close then some (skipWs r) else none
  | _ => none

/-- member の名前の後ろ：閉じの `"`、空白、`:` を読む。 -/
def scanKey (r : List Char) : Option (List Char) :=
  match (scanString r).map skipWs with
  | some (c :: r) => if c = ':' then some r else none
  | _ => none

mutual
/-- 前後の空白を含めて値を一つ読み、残りを返す。 -/
def scanValue : Nat → List Char → Option (List Char)
  | 0, _ => none
  | n + 1, s =>
    match skipWs s with
    | [] => none
    | c :: r =>
      if c = '{' then scanOpen '}' (scanMembers n) r
      else if c = '[' then scanOpen ']' (scanItems n) r
      else if c = '"' then (scanString r).map skipWs
      else if c = 't' then (scanWord "rue".toList r).map skipWs
      else if c = 'f' then (scanWord "alse".toList r).map skipWs
      else if c = 'n' then (scanWord "ull".toList r).map skipWs
      else (scanNumber (c :: r)).map skipWs

/-- array の要素を `,` で区切って `]` まで読む。 -/
def scanItems : Nat → List Char → Option (List Char)
  | 0, _ => none
  | n + 1, s => scanNext ']' (scanItems n) (scanValue n s)

/-- object の member を `,` で区切って `}` まで読む。 -/
def scanMembers : Nat → List Char → Option (List Char)
  | 0, _ => none
  | n + 1, s =>
    match skipWs s with
    | c :: r => if c = '"' then (scanKey r).bind fun r => scanNext '}' (scanMembers n) (scanValue n r) else none
    | [] => none
end


/--
`s` 全体が一つの JSON の値である。入れ子を一つ下りるごとに一文字以上を読むので、
fuel は長さの二倍で足りる。
-/
def jsonValueText (s : List Char) : Bool := scanValue (2 * s.length + 2) s = some []

example : jsonValueText "\x7b\"a\" : [1, -2.5e+3, true, null, \"x\\u00e9\"]\x7d".toList = true := by decide
example : jsonValueText "[1,]".toList = false := by decide

/-! ## 読み終えるところ -/

/-- 値の後ろに来ても、値を読み終えるところを変えない文字列：空か、`,`、`]`、`}` で始まる。 -/
def Follows (t : List Char) : Prop := ∀ c ∈ t.head?, c = ',' ∨ c = ']' ∨ c = '}'

theorem Follows.nil : Follows [] := fun _ h => absurd h (Option.not_mem_none _)

theorem Follows.dropWhile {t : List Char} (h : Follows t) {p : Char → Bool}
    (hp : p ',' = false ∧ p ']' = false ∧ p '}' = false) : t.dropWhile p = t := by
  cases t with
  | nil => rfl
  | cons c t => rcases h c rfl with rfl | rfl | rfl <;> simp [List.dropWhile_cons, hp]

theorem dropWhile_append_stop {l t : List Char} {p : Char → Bool}
    (h : l.dropWhile p ≠ [] ∨ t.dropWhile p = t) : (l ++ t).dropWhile p = l.dropWhile p ++ t := by
  rw [List.dropWhile_append]
  split
  · next he =>
    rw [List.isEmpty_iff.mp he, List.nil_append]
    exact h.resolve_left (not_not.mpr (List.isEmpty_iff.mp he))
  · rfl

theorem skipWs_append {s t : List Char} (h : skipWs s ≠ [] ∨ Follows t) : skipWs (s ++ t) = skipWs s ++ t :=
  dropWhile_append_stop (h.imp_right fun h => h.dropWhile ⟨rfl, rfl, rfl⟩)

/-- 読み終えたところの後ろに何を足しても（読み終えたのが末尾なら、区切りで始まるものを）、
同じところで読み終える。 -/
def ScanAppend (f : List Char → Option (List Char)) : Prop :=
  ∀ ⦃s x t : List Char⦄, f s = some x → (x ≠ [] ∨ Follows t) → f (s ++ t) = some (x ++ t)

/-- 文字列は閉じの `"` で終わるので、後ろに何を足しても同じところで読み終える。 -/
theorem scanStr_append (t : List Char) : ∀ (s : List Char) (st : StrState) {x : List Char},
    scanStr st s = some x → scanStr st (s ++ t) = some (x ++ t)
  | [], _, _, h => by simp [scanStr] at h
  | c :: r, st, x, h => by
    have ih := scanStr_append t r
    rcases st with _ | _ | k <;> simp only [scanStr, List.cons_append] at h ⊢ <;> split_ifs at h ⊢ <;>
      first | exact ih _ h | (cases h; rfl)

theorem scanString_append : ScanAppend scanString := fun s _ t h _ => scanStr_append t s .plain h

theorem ScanAppend.map_skipWs {f : List Char → Option (List Char)} (hf : ScanAppend f) :
    ScanAppend fun s => (f s).map skipWs := by
  intro s x t h ht
  beta_reduce at h ⊢
  obtain ⟨y, hy, rfl⟩ := Option.map_eq_some'.mp h
  have hy' : y ≠ [] ∨ Follows t := by
    rcases eq_or_ne y [] with rfl | hne
    · exact .inr (ht.resolve_left (by simp [skipWs]))
    · exact .inl hne
  rw [hf hy hy', Option.map_some', skipWs_append ht]

/-- `g` が空を読み切れなければ（空を読めば空を返すなら）、`f` の後ろに `g` を続けても同じ。 -/
theorem ScanAppend.bind {f g : List Char → Option (List Char)} (hf : ScanAppend f) (hg : ScanAppend g)
    (hg0 : ∀ x, g [] = some x → x = []) : ScanAppend fun s => (f s).bind g := by
  intro s x t h ht
  beta_reduce at h ⊢
  obtain ⟨y, hy, hx⟩ := Option.bind_eq_some.mp h
  have hy' : y ≠ [] ∨ Follows t := by
    rcases eq_or_ne y [] with rfl | hne
    · exact .inr (ht.resolve_left (by simp [hg0 x hx]))
    · exact .inl hne
  rw [hf hy hy', Option.some_bind, hg hx ht]

theorem scanWord_append (w : List Char) : ScanAppend (scanWord w) := by
  intro s x t h _
  induction w generalizing s with
  | nil => cases h; rfl
  | cons c w ih =>
    rcases s with _ | ⟨d, s⟩
    · simp [scanWord] at h
    · simp only [scanWord, List.cons_append] at h ⊢
      split_ifs at h ⊢
      exact ih h

theorem scanDigits1_append : ScanAppend scanDigits1 := by
  rintro (_ | ⟨c, r⟩) x t h ht
  · simp [scanDigits1] at h
  · simp only [scanDigits1, List.cons_append] at h ⊢
    split_ifs at h ⊢
    cases h
    rw [dropWhile_append_stop (ht.imp_right fun h => h.dropWhile (by decide))]

theorem scanInt_append : ScanAppend scanInt := by
  rintro (_ | ⟨c, r⟩) x t h ht
  · simp [scanInt] at h
  · simp only [scanInt, List.cons_append] at h ⊢
    split_ifs at h ⊢
    · cases h; rfl
    · exact scanDigits1_append h ht

theorem dropMinus_append {s : List Char} (hs : s ≠ []) (t : List Char) :
    dropMinus (s ++ t) = dropMinus s ++ t := by
  obtain ⟨c, r, rfl⟩ := List.exists_cons_of_ne_nil hs
  simp only [dropMinus, List.cons_append]
  split_ifs <;> rfl

theorem dropSign_append {s : List Char} (hs : s ≠ []) (t : List Char) :
    dropSign (s ++ t) = dropSign s ++ t := by
  obtain ⟨c, r, rfl⟩ := List.exists_cons_of_ne_nil hs
  simp only [dropSign, List.cons_append]
  split_ifs <;> rfl

theorem scanFrac_append : ScanAppend scanFrac := by
  rintro (_ | ⟨c, r⟩) x t h ht
  · simp only [scanFrac, Option.some.injEq] at h
    subst h
    rcases t with _ | ⟨d, t⟩
    · rfl
    · have hd := ht.resolve_left (by simp) d rfl
      simp only [List.nil_append, scanFrac]
      rw [if_neg (by rcases hd with rfl | rfl | rfl <;> decide)]
  · simp only [scanFrac, List.cons_append] at h ⊢
    split_ifs at h ⊢
    · exact scanDigits1_append h ht
    · cases h; rfl

theorem scanExp_append : ScanAppend scanExp := by
  rintro (_ | ⟨c, r⟩) x t h ht
  · simp only [scanExp, Option.some.injEq] at h
    subst h
    rcases t with _ | ⟨d, t⟩
    · rfl
    · have hd := ht.resolve_left (by simp) d rfl
      simp only [List.nil_append, scanExp]
      rw [if_neg (by rcases hd with rfl | rfl | rfl <;> decide)]
  · simp only [scanExp, List.cons_append] at h ⊢
    split_ifs at h ⊢
    · have hr : r ≠ [] := by rintro rfl; simp [dropSign, scanDigits1] at h
      rw [dropSign_append hr]
      exact scanDigits1_append h ht
    · cases h; rfl

theorem scanNumber_append : ScanAppend scanNumber := by
  have hint : ScanAppend fun s => scanInt (dropMinus s) := by
    intro s x t h ht
    beta_reduce at h ⊢
    have hs : s ≠ [] := by rintro rfl; simp [dropMinus, scanInt] at h
    rw [dropMinus_append hs]
    exact scanInt_append h ht
  exact (hint.bind scanFrac_append fun x h => by cases h; rfl).bind scanExp_append fun x h => by cases h; rfl

theorem scanKey_append : ScanAppend scanKey := by
  intro s x t h _
  unfold scanKey at h ⊢
  rcases hs : (scanString s).map skipWs with _ | _ | ⟨c, r⟩ <;> rw [hs] at h
  · cases h
  · cases h
  · have e := scanString_append.map_skipWs hs
      (show c :: r ≠ [] ∨ Follows t from .inl (List.cons_ne_nil _ _))
    beta_reduce at e
    rw [e, List.cons_append]
    dsimp only at h ⊢
    split_ifs at h ⊢
    cases h; rfl

theorem scanOpen_append {close : Char} {f : List Char → Option (List Char)} (hf : ScanAppend f)
    (hf0 : f [] = none) : ScanAppend (scanOpen close f) := by
  intro r x t h ht
  unfold scanOpen at h ⊢
  rcases hr : skipWs r with _ | ⟨c, r'⟩
  · rw [hr] at h; simp [hf0] at h
  · rw [hr] at h
    rw [skipWs_append (.inl (by rw [hr]; exact List.cons_ne_nil _ _)), hr, List.cons_append]
    simp only [List.head?_cons, List.tail_cons, Option.some.injEq] at h ⊢
    split_ifs at h ⊢
    · cases h; exact congrArg some (skipWs_append ht)
    · exact hf h ht

theorem scanNext_append {close : Char} {f g : List Char → Option (List Char)} (hf : ScanAppend f)
    (hg : ScanAppend g) : ScanAppend fun s => scanNext close f (g s) := by
  intro s x t h ht
  beta_reduce at h ⊢
  rcases hs : g s with _ | _ | ⟨c, r⟩ <;> rw [hs] at h
  · cases h
  · cases h
  · rw [hg hs (.inl (List.cons_ne_nil _ _)), List.cons_append]
    simp only [scanNext] at h ⊢
    split_ifs at h ⊢
    · exact hf h ht
    · cases h; exact congrArg some (skipWs_append ht)

theorem scanValue_nil : ∀ n, scanValue n [] = none
  | 0 => rfl
  | _ + 1 => rfl

theorem scanItems_nil : ∀ n, scanItems n [] = none
  | 0 => rfl
  | n + 1 => by simp only [scanItems, scanValue_nil, scanNext]

theorem scanMembers_nil : ∀ n, scanMembers n [] = none
  | 0 => rfl
  | _ + 1 => rfl

/--
**値、要素の列、member の列は、後ろに足したものを読まない。** 読み終えたところが末尾でなければ
何を足しても、末尾なら区切りで始まるものを足しても、同じところで読み終える。
-/
theorem scan_append : ∀ n, ScanAppend (scanValue n) ∧ ScanAppend (scanItems n) ∧ ScanAppend (scanMembers n)
  | 0 => ⟨fun _ _ _ h => (nomatch h), fun _ _ _ h => (nomatch h), fun _ _ _ h => (nomatch h)⟩
  | n + 1 => by
    obtain ⟨hV, hI, hM⟩ := scan_append n
    refine ⟨fun s x t h ht => ?_, fun s x t h ht => scanNext_append hI hV h ht, fun s x t h ht => ?_⟩
    · rcases hs : skipWs s with _ | ⟨c, r⟩
      · simp [scanValue, hs] at h
      have e : skipWs (s ++ t) = c :: (r ++ t) := by
        rw [skipWs_append (.inl (by simp [hs])), hs, List.cons_append]
      simp only [scanValue, hs, e] at h ⊢
      split_ifs at h ⊢
      · exact scanOpen_append hM (scanMembers_nil n) h ht
      · exact scanOpen_append hI (scanItems_nil n) h ht
      · exact scanString_append.map_skipWs h ht
      · exact (scanWord_append _).map_skipWs h ht
      · exact (scanWord_append _).map_skipWs h ht
      · exact (scanWord_append _).map_skipWs h ht
      · exact scanNumber_append.map_skipWs h ht
    · rcases hs : skipWs s with _ | ⟨c, r⟩
      · simp [scanMembers, hs] at h
      have e : skipWs (s ++ t) = c :: (r ++ t) := by
        rw [skipWs_append (.inl (by simp [hs])), hs, List.cons_append]
      simp only [scanMembers, hs, e] at h ⊢
      split_ifs at h ⊢
      exact (scanKey_append.bind (@scanNext_append '}' _ _ hM hV)
        fun x h => by simp [scanValue_nil, scanNext] at h) h ht

/-- `f` が読み終えるところで、`g` も読み終える。 -/
def ScanLe (f g : List Char → Option (List Char)) : Prop := ∀ ⦃s x : List Char⦄, f s = some x → g s = some x

theorem scanOpen_mono {close : Char} {f g : List Char → Option (List Char)} (h : ScanLe f g) :
    ScanLe (scanOpen close f) (scanOpen close g) := by
  intro s x hs
  unfold scanOpen at hs ⊢
  split_ifs at hs ⊢
  · exact hs
  · exact h hs

theorem scanNext_mono {close : Char} {f f' g g' : List Char → Option (List Char)} (hf : ScanLe f f')
    (hg : ScanLe g g') : ScanLe (fun s => scanNext close f (g s)) (fun s => scanNext close f' (g' s)) := by
  intro s x hs
  beta_reduce at hs ⊢
  rcases e : g s with _ | _ | ⟨c, r⟩ <;> rw [e] at hs
  · cases hs
  · cases hs
  · rw [hg e]
    simp only [scanNext] at hs ⊢
    split_ifs at hs ⊢
    · exact hf hs
    · exact hs

/-- **fuel を一つ増やしても、読み終えるところは変わらない。** -/
theorem scan_mono : ∀ n, ScanLe (scanValue n) (scanValue (n + 1)) ∧ ScanLe (scanItems n) (scanItems (n + 1)) ∧
    ScanLe (scanMembers n) (scanMembers (n + 1))
  | 0 => ⟨fun _ _ h => (nomatch h), fun _ _ h => (nomatch h), fun _ _ h => (nomatch h)⟩
  | n + 1 => by
    obtain ⟨hV, hI, hM⟩ := scan_mono n
    refine ⟨fun s x h => ?_, fun s x h => scanNext_mono hI hV h, fun s x h => ?_⟩
    · rcases hs : skipWs s with _ | ⟨c, r⟩
      · simp [scanValue, hs] at h
      simp only [scanValue, hs] at h ⊢
      split_ifs at h ⊢
      · exact scanOpen_mono hM h
      · exact scanOpen_mono hI h
      all_goals exact h
    · rcases hs : skipWs s with _ | ⟨c, r⟩
      · simp [scanMembers, hs] at h
      simp only [scanMembers, hs] at h ⊢
      split_ifs at h ⊢
      obtain ⟨y, hy, hx⟩ := Option.bind_eq_some.mp h
      rw [hy, Option.some_bind]
      exact scanNext_mono hM hV hx

theorem scanValue_mono {n m : Nat} (hnm : n ≤ m) {s x : List Char} (h : scanValue n s = some x) :
    scanValue m s = some x := by
  induction m, hnm using Nat.le_induction with
  | base => exact h
  | succ m _ ih => exact (scan_mono m).1 ih

/-- JSON の値の文字列は、後ろに区切りで始まるものを足しても、そこまでを一つの値として読む。 -/
theorem scanValue_jsonValueText {text : List Char} (h : jsonValueText text = true) {n : Nat}
    (hn : 2 * text.length + 2 ≤ n) {t : List Char} (ht : Follows t) : scanValue n (text ++ t) = some t :=
  (scan_append n).1 (scanValue_mono hn (of_decide_eq_true h)) (.inr ht)

/-! ## `ul_jsonwrt` の呼び出し -/

/-- `write_file_json` が呼ぶ `ul_jsonwrt_*`。名前の `none` は NULL。 -/
inductive JsonEv
  | rootOpen
  | rootClose
  | objectOpen (name : Option (List Char))
  | objectClose
  | arrayOpen (name : List Char)
  | arrayClose
  | valueS (name data : List Char)
  | valueRaw (name data : List Char)
  | valueU64 (name : List Char) (n : Nat)
  | valueBoolean (name : List Char) (b : Bool)
deriving DecidableEq, Repr

/-- header の JSON での名前と、数としてそのまま書くか。 -/
def jsonHeaderName (name : List Char) : List Char × Bool :=
  if name = "first-lba".toList then ("firstlba".toList, true)
  else if name = "last-lba".toList then ("lastlba".toList, true)
  else if name = "sector-size".toList then ("sectorsize".toList, true)
  else if name = "label-id".toList then ("id".toList, false)
  else (name, false)

/-- header のループの一周。 -/
def headerEv (fi : Header) : JsonEv :=
  if (jsonHeaderName fi.name).2 then .valueRaw (jsonHeaderName fi.name).1 fi.data
  else .valueS (jsonHeaderName fi.name).1 fi.data

/--
partition のループの一周。type の code は `ul_jsonwrt_value_open`、`fprintf(f, "\"%x\"")`、
`ul_jsonwrt_value_close` で書かれ、これは `value_raw` に `"%x"` の文字列を渡すのと同じ。
-/
def partitionEvs (env : Env) (devname : Option (List Char)) (dp : Script) (pa : Partition) :
    List JsonEv × Script :=
  let node := match devname.bind (env.partname · (partnoNext pa)) with
    | some p => [JsonEv.valueS "node".toList p]
    | none => []
  let start := match pa.start with
    | some n => [JsonEv.valueU64 "start".toList n]
    | none => []
  let size := match pa.size with
    | some n => [JsonEv.valueU64 "size".toList n]
    | none => []
  let type := match pa.type with
    | some ⟨some s, _⟩ => [JsonEv.valueS "type".toList s]
    | some ⟨none, code⟩ => [JsonEv.valueRaw "type".toList ('"' :: hex code ++ ['"'])]
    | none => []
  let uuid := match pa.uuid with
    | some u => [JsonEv.valueS "uuid".toList u]
    | none => []
  let name := match pa.name with
    | some n => if n = [] then [] else [JsonEv.valueS "name".toList n]
    | none => []
  let attrs : List JsonEv × Script := match pa.attrs with
    | some a =>
      let (lb, dp) := scriptGetLabel env dp
      (if writesAttrs lb then [JsonEv.valueS "attrs".toList a] else [], dp)
    | none => ([], dp)
  let boot := if pa.boot then [JsonEv.valueBoolean "bootable".toList true] else []
  (.objectOpen none :: (node ++ start ++ size ++ type ++ uuid ++ name ++ attrs.1 ++ boot) ++
    [.objectClose], attrs.2)

/-- partition の table のループ。`ct` の数えは何も書かないので写さない。 -/
def partitionsEvs (env : Env) (devname : Option (List Char)) :
    Script → List Partition → List JsonEv × Script
  | dp, [] => ([], dp)
  | dp, pa :: t =>
    let e := partitionEvs env devname dp pa
    let r := partitionsEvs env devname e.2 t
    (e.1 ++ r.1, r.2)

/-- `"partitions"` の array。table が無いか空なら何も書かない（`goto done`）。 -/
def partitionsArray (env : Env) (dp : Script) : List JsonEv × Script :=
  match dp.table with
  | none | some [] => ([], dp)
  | some t =>
    let r := partitionsEvs env (devnameOf dp.headers) dp t
    (.arrayOpen "partitions".toList :: r.1 ++ [.arrayClose], r.2)

/-- `write_file_json(dp, f)`：呼び出しの列と script。 -/
def writeFileJson (env : Env) (dp : Script) : List JsonEv × Script :=
  let body := partitionsArray env dp
  ([.rootOpen, .objectOpen (some "partitiontable".toList)] ++ dp.headers.map headerEv ++ body.1 ++
    [.objectClose, .rootClose], body.2)

/-! ## 呼び出しの列の意味 -/

/-- JSON の木。`raw` はそのまま書かれた文字列。 -/
inductive JVal
  | str (s : List Char)
  | num (n : Nat)
  | bool (b : Bool)
  | raw (text : List Char)
  | obj (members : List (List Char × JVal))
  | arr (items : List JVal)

/-- 開いている object か array と、そこまでに入ったもの。 -/
inductive Frame
  | obj (name : Option (List Char)) (members : List (List Char × JVal))
  | arr (name : Option (List Char)) (items : List JVal)

/-- 値を入れ物に入れる。object には名前つきで、array には名前なしで入る。 -/
def Frame.add : Frame → Option (List Char) → JVal → Option Frame
  | .obj n ms, some k, v => some (.obj n (ms ++ [(k, v)]))
  | .arr n vs, none, v => some (.arr n (vs ++ [v]))
  | _, _, _ => none

/-- writer の状態：開いている入れ物の stack と、閉じた root。 -/
structure Writer where
  stack : List Frame
  root : Option JVal

/-- 値を一番上の入れ物に入れる。 -/
def Writer.addValue (w : Writer) (k : Option (List Char)) (v : JVal) : Option Writer :=
  match w.stack with
  | f :: rest => (f.add k v).map fun f => { w with stack := f :: rest }
  | [] => none

/-- `ul_jsonwrt_*` の一つの呼び出し。 -/
def Writer.step (w : Writer) : JsonEv → Option Writer
  | .rootOpen =>
    if w.stack.isEmpty && w.root.isNone then some ⟨[.obj none []], none⟩ else none
  | .rootClose =>
    match w.stack with
    | [.obj none ms] => some ⟨[], some (.obj ms)⟩
    | _ => none
  | .objectOpen n => if w.stack.isEmpty then none else some { w with stack := .obj n [] :: w.stack }
  | .arrayOpen n =>
    if w.stack.isEmpty then none else some { w with stack := .arr (some n) [] :: w.stack }
  | .objectClose =>
    match w.stack with
    | .obj n ms :: rest => Writer.addValue { w with stack := rest } n (.obj ms)
    | _ => none
  | .arrayClose =>
    match w.stack with
    | .arr n vs :: rest => Writer.addValue { w with stack := rest } n (.arr vs)
    | _ => none
  | .valueS k s => w.addValue (some k) (.str s)
  | .valueRaw k s => w.addValue (some k) (.raw s)
  | .valueU64 k n => w.addValue (some k) (.num n)
  | .valueBoolean k b => w.addValue (some k) (.bool b)

/-- 呼び出しの列が作る root の object。入れ子が閉じていなければ `none`。 -/
def build (evs : List JsonEv) : Option JVal :=
  (evs.foldlM Writer.step ⟨[], none⟩).bind fun w => if w.stack.isEmpty then w.root else none

/-- 文字列の writer の escape：`"` と `\` の前に `\` を置き、制御文字は `\u00XX` にする。 -/
def escapeChar (c : Char) : List Char :=
  if c = '"' ∨ c = '\\' then ['\\', c]
  else if c.toNat < 0x20 then ['\\', 'u', '0', '0', Nat.digitChar (c.toNat / 16), Nat.digitChar (c.toNat % 16)]
  else [c]

/-- 文字列の中身を escape して並べる。 -/
def escapeJson : List Char → List Char
  | [] => []
  | c :: s => escapeChar c ++ escapeJson s

/-- 文字列を `"` で囲んで書く。 -/
def quoteJson (s : List Char) : List Char := '"' :: escapeJson s ++ ['"']

mutual
/-- 木を JSON の文字で書く。token の間の空白（writer の改行と字下げ）は書かない。 -/
def JVal.render : JVal → List Char
  | .str s => quoteJson s
  | .num n => decimal n
  | .bool b => if b then "true".toList else "false".toList
  | .raw t => t
  | .obj ms => '\x7b' :: renderMembers ms ++ ['\x7d']
  | .arr vs => '[' :: renderItems vs ++ [']']

/-- object の member を `,` で区切って書く。 -/
def renderMembers : List (List Char × JVal) → List Char
  | [] => []
  | [(k, v)] => quoteJson k ++ ':' :: JVal.render v
  | (k, v) :: m :: ms => quoteJson k ++ ':' :: JVal.render v ++ ',' :: renderMembers (m :: ms)

/-- array の要素を `,` で区切って書く。 -/
def renderItems : List JVal → List Char
  | [] => []
  | [v] => JVal.render v
  | v :: w :: vs => JVal.render v ++ ',' :: renderItems (w :: vs)
end

/-- `value_raw` でそのまま書かれる文字列。 -/
def JsonEv.rawText : JsonEv → Option (List Char)
  | .valueRaw _ d => some d
  | _ => none

/-! ## 呼び出しの列が作る木 -/

/-- 名前つきの値の呼び出しが object に入れる member。 -/
def JsonEv.member : JsonEv → Option (List Char × JVal)
  | .valueS k s => some (k, .str s)
  | .valueRaw k s => some (k, .raw s)
  | .valueU64 k n => some (k, .num n)
  | .valueBoolean k b => some (k, .bool b)
  | _ => none

theorem step_of_member {w : Writer} {e : JsonEv} {k : List Char} {v : JVal}
    (h : e.member = some (k, v)) : w.step e = w.addValue (some k) v := by
  cases e <;> cases h <;> rfl

/-- 名前つきの値の列は、開いている object に member を足すだけ。 -/
theorem foldlM_members (evs : List JsonEv) (h : evs.all (·.member.isSome)) (n : Option (List Char))
    (ms : List (List Char × JVal)) (rest : List Frame) (r : Option JVal) :
    evs.foldlM Writer.step ⟨.obj n ms :: rest, r⟩ =
      some ⟨.obj n (ms ++ evs.filterMap JsonEv.member) :: rest, r⟩ := by
  induction evs generalizing ms with
  | nil => simp
  | cons e evs ih =>
    simp only [List.all_cons, Bool.and_eq_true] at h
    obtain ⟨⟨k, v⟩, he⟩ := Option.isSome_iff_exists.mp h.1
    simp [step_of_member he, Writer.addValue, Frame.add, ih h.2, he]

/-- object の呼び出し：開いて、名前つきの値を入れて、閉じると、一つ上の入れ物に入る。 -/
theorem foldlM_object (vals : List JsonEv) (h : vals.all (·.member.isSome))
    (k : Option (List Char)) (f f' : Frame) (rest : List Frame) (r : Option JVal)
    (hf : f.add k (.obj (vals.filterMap JsonEv.member)) = some f') :
    (JsonEv.objectOpen k :: vals ++ [JsonEv.objectClose]).foldlM Writer.step ⟨f :: rest, r⟩ =
      some ⟨f' :: rest, r⟩ := by
  simp only [List.cons_append, List.foldlM_cons, List.foldlM_append, List.foldlM_nil, Writer.step,
    List.isEmpty_cons, Bool.false_eq_true, ↓reduceIte, Writer.addValue, Option.pure_def,
    Option.bind_eq_bind, Option.bind_some, Option.some_bind, foldlM_members vals h, List.nil_append,
    hf, Option.map_some']

/-- partition の object の呼び出しは、開いて、名前つきの値を並べて、閉じる。 -/
theorem partitionEvs_values (env : Env) (dev : Option (List Char)) (dp : Script) (pa : Partition) :
    ∃ vals, (partitionEvs env dev dp pa).1 = .objectOpen none :: vals ++ [.objectClose] ∧
      vals.all (·.member.isSome) := by
  refine ⟨_, rfl, ?_⟩
  simp only [List.all_append, Bool.and_eq_true]
  refine ⟨⟨⟨⟨⟨⟨⟨?_, ?_⟩, ?_⟩, ?_⟩, ?_⟩, ?_⟩, ?_⟩, ?_⟩ <;> (repeat' split) <;> rfl

theorem foldlM_partitionEvs (env : Env) (dev : Option (List Char)) (dp : Script) (pa : Partition)
    (n : Option (List Char)) (vs : List JVal) (rest : List Frame) (r : Option JVal) :
    ∃ v, (partitionEvs env dev dp pa).1.foldlM Writer.step ⟨.arr n vs :: rest, r⟩ =
      some ⟨.arr n (vs ++ [v]) :: rest, r⟩ := by
  obtain ⟨vals, he, hv⟩ := partitionEvs_values env dev dp pa
  exact ⟨_, he ▸ foldlM_object vals hv none (.arr n vs) _ rest r rfl⟩

theorem foldlM_partitionsEvs (env : Env) (dev : Option (List Char)) (n : Option (List Char))
    (rest : List Frame) (r : Option JVal) (t : List Partition) (dp : Script) (vs : List JVal) :
    ∃ vs', (partitionsEvs env dev dp t).1.foldlM Writer.step ⟨.arr n vs :: rest, r⟩ =
      some ⟨.arr n vs' :: rest, r⟩ := by
  induction t generalizing dp vs with
  | nil => exact ⟨vs, rfl⟩
  | cons pa t ih =>
    obtain ⟨v, hv⟩ := foldlM_partitionEvs env dev dp pa n vs rest r
    obtain ⟨vs', h⟩ := ih (partitionEvs env dev dp pa).2 (vs ++ [v])
    exact ⟨vs', by simp [partitionsEvs, List.foldlM_append, hv, h]⟩

theorem foldlM_partitionsArray (env : Env) (dp : Script) (n : Option (List Char))
    (ms : List (List Char × JVal)) (rest : List Frame) (r : Option JVal) :
    ∃ ms', (partitionsArray env dp).1.foldlM Writer.step ⟨.obj n ms :: rest, r⟩ =
      some ⟨.obj n ms' :: rest, r⟩ := by
  unfold partitionsArray
  split
  · exact ⟨ms, rfl⟩
  · exact ⟨ms, rfl⟩
  · rename_i t _ _
    obtain ⟨vs', h⟩ := foldlM_partitionsEvs env (devnameOf dp.headers) (some "partitions".toList)
      (.obj n ms :: rest) r t dp []
    generalize "partitions".toList = p at h ⊢
    refine ⟨ms ++ [(p, .arr vs')], ?_⟩
    simp only [List.cons_append, List.foldlM_cons, List.foldlM_append, List.foldlM_nil, Writer.step,
      List.isEmpty_cons, Bool.false_eq_true, ↓reduceIte, Writer.addValue, Frame.add, Option.pure_def,
      Option.bind_eq_bind, Option.bind_some, Option.some_bind, h, Option.map_some']

theorem headerEv_member (fi : Header) : (headerEv fi).member.isSome := by
  unfold headerEv; split <;> rfl

/-- **呼び出しの列は、`"partitiontable"` の object を一つだけ持つ root の object になる。** -/
theorem build_writeFileJson (env : Env) (dp : Script) :
    ∃ ms, build (writeFileJson env dp).1 = some (.obj [("partitiontable".toList, .obj ms)]) := by
  have hh : (dp.headers.map headerEv).all (·.member.isSome) := by
    simp [List.all_map, Function.comp_def, headerEv_member]
  obtain ⟨ms, h⟩ := foldlM_partitionsArray env dp (some "partitiontable".toList)
    ((dp.headers.map headerEv).filterMap JsonEv.member) [.obj none []] none
  refine ⟨ms, ?_⟩
  simp only [writeFileJson]
  generalize "partitiontable".toList = p at h ⊢
  rw [List.filterMap_map] at h
  simp only [build, List.cons_append, List.singleton_append, List.append_assoc, List.foldlM_cons,
    List.foldlM_append, List.foldlM_nil, Writer.step, List.isEmpty_nil, List.isEmpty_cons,
    Option.isNone_none, Bool.and_self, Bool.false_eq_true, ↓reduceIte, List.isEmpty_eq_true,
    Writer.addValue, Frame.add, Option.pure_def, Option.bind_eq_bind, Option.bind_some,
    Option.some_bind, foldlM_members _ hh, List.filterMap_map, List.nil_append, h, Option.map_some']

/-! ## 書いた文字を読む -/

mutual
/-- そのまま書かれた文字列がどれも JSON の値である木。 -/
def JVal.rawOk : JVal → Bool
  | .raw t => jsonValueText t
  | .obj ms => membersRawOk ms
  | .arr vs => itemsRawOk vs
  | _ => true

def membersRawOk : List (List Char × JVal) → Bool
  | [] => true
  | (_, v) :: ms => JVal.rawOk v && membersRawOk ms

def itemsRawOk : List JVal → Bool
  | [] => true
  | v :: vs => JVal.rawOk v && itemsRawOk vs
end

theorem isHexDigit_digitChar : ∀ d < 16, isHexDigit (Nat.digitChar d) = true := by decide

/-- 一文字の escape を読むと、ふつうの文字の間に戻る。 -/
theorem scanStr_escapeChar (c : Char) (r : List Char) :
    scanStr .plain (escapeChar c ++ r) = scanStr .plain r := by
  unfold escapeChar
  split_ifs with hq hc
  · rcases hq with rfl | rfl <;> rfl
  · have h₁ := isHexDigit_digitChar (c.toNat / 16) (by omega)
    have h₂ := isHexDigit_digitChar (c.toNat % 16) (Nat.mod_lt _ (by decide))
    have h₀ : isHexDigit '0' = true := by decide
    simp [scanStr, h₀, h₁, h₂]
  · simp only [not_or] at hq
    simp [scanStr, hq.1, hq.2, hc]

theorem scanString_quote (s r : List Char) : scanString (escapeJson s ++ '"' :: r) = some r := by
  induction s with
  | nil => simp [scanString, escapeJson, scanStr]
  | cons c s ih => rw [escapeJson, List.append_assoc, scanString, scanStr_escapeChar]; exact ih

theorem digitChar_eq_zero : ∀ d < 10, Nat.digitChar d = '0' → d = 0 := by decide

/-- `Nat.toDigits` の先頭の数字が `0` なのは、`0` を書いたときだけ。 -/
theorem toDigitsCore_head : ∀ (fuel n : Nat) (ds : List Char), n < fuel →
    ∃ d r, Nat.toDigitsCore 10 fuel n ds = d :: r ∧ (d = '0' → n = 0 ∧ r = ds)
  | 0, _, _, h => absurd h (Nat.not_lt_zero _)
  | fuel + 1, n, ds, h => by
    show ∃ d r, (if n / 10 = 0 then Nat.digitChar (n % 10) :: ds
      else Nat.toDigitsCore 10 fuel (n / 10) (Nat.digitChar (n % 10) :: ds)) = d :: r ∧ _
    split
    · next hn =>
      refine ⟨_, _, rfl, fun h0 => ⟨?_, rfl⟩⟩
      have := digitChar_eq_zero (n % 10) (Nat.mod_lt _ (by decide)) h0
      omega
    · next hn =>
      obtain ⟨d, r, e, hd⟩ := toDigitsCore_head fuel (n / 10) _ (by omega)
      exact ⟨d, r, e, fun h0 => absurd (hd h0).1 hn⟩

/-- 十進で書いた数は、先頭が `0` なら `0` 一文字。 -/
theorem decimal_cons (k : Nat) : ∃ d r, decimal k = d :: r ∧ (d = '0' → r = []) :=
  let ⟨d, r, e, h⟩ := toDigitsCore_head (k + 1) k [] (Nat.lt_succ_self k)
  ⟨d, r, e, fun h0 => (h h0).2⟩

theorem scanNumber_decimal (k : Nat) : scanNumber (decimal k) = some [] := by
  obtain ⟨d, r, e, h0⟩ := decimal_cons k
  have hdig := (decimal_digits k).2
  rw [e] at hdig ⊢
  have hd : isDigit d = true := hdig d (List.mem_cons_self _ _)
  have hr : r.dropWhile isDigit = [] :=
    List.dropWhile_eq_nil_iff.mpr fun c hc => hdig c (List.mem_cons_of_mem _ hc)
  have hm : d ≠ '-' := ne_of_isDigit hd (by decide)
  by_cases hz : d = '0'
  · simp [scanNumber, dropMinus, scanInt, hm, hz, h0 hz, scanFrac, scanExp]
  · simp [scanNumber, dropMinus, scanInt, scanDigits1, hm, hz, hd, hr, scanFrac, scanExp]

theorem skipWs_cons {c : Char} (h : isJsonWs c = false) (r : List Char) : skipWs (c :: r) = c :: r := by
  simp [skipWs, List.dropWhile_cons, h]

theorem Follows.skipWs_eq {t : List Char} (h : Follows t) : skipWs t = t := h.dropWhile (by decide)

theorem scanWord_self (t : List Char) : ∀ w : List Char, scanWord w (w ++ t) = some t
  | [] => rfl
  | c :: w => by simp [scanWord, scanWord_self t w]

theorem scanValue_str (s : List Char) (n : Nat) {t : List Char} (ht : Follows t) :
    scanValue (n + 1) (quoteJson s ++ t) = some t := by
  simp [quoteJson, scanValue, skipWs_cons (c := '"') rfl, scanString_quote, ht.skipWs_eq]

theorem scanValue_num (k n : Nat) {t : List Char} (ht : Follows t) :
    scanValue (n + 1) (JVal.render (.num k) ++ t) = some t := by
  obtain ⟨d, r, e, -⟩ := decimal_cons k
  have hd : isDigit d = true := (decimal_digits k).2 d (by rw [e]; exact List.mem_cons_self _ _)
  have hws : isJsonWs d = false := by
    simp only [isJsonWs, Bool.or_eq_false_iff, beq_eq_false_iff_ne]
    exact ⟨⟨⟨ne_of_isDigit hd rfl, ne_of_isDigit hd rfl⟩, ne_of_isDigit hd rfl⟩, ne_of_isDigit hd rfl⟩
  have hnum := scanNumber_append (scanNumber_decimal k) (.inr ht)
  rw [e] at hnum
  simp only [JVal.render, e, List.cons_append, scanValue, skipWs_cons hws, ne_of_isDigit hd (by decide : isDigit '{' = false),
    ne_of_isDigit hd (by decide : isDigit '[' = false), ne_of_isDigit hd (by decide : isDigit '"' = false),
    ne_of_isDigit hd (by decide : isDigit 't' = false), ne_of_isDigit hd (by decide : isDigit 'f' = false),
    ne_of_isDigit hd (by decide : isDigit 'n' = false), if_false]
  rw [← List.cons_append, hnum, Option.map_some', List.nil_append, ht.skipWs_eq]

theorem scanValue_bool (b : Bool) (n : Nat) {t : List Char} (ht : Follows t) :
    scanValue (n + 1) (JVal.render (.bool b) ++ t) = some t := by
  cases b <;> simp [JVal.render, scanValue, skipWs_cons, isJsonWs] <;> exact ⟨t, scanWord_self t _, ht.skipWs_eq⟩

theorem skipWs_skipWs : ∀ s : List Char, skipWs (skipWs s) = skipWs s
  | [] => rfl
  | c :: s => by
    by_cases hc : isJsonWs c = true
    · have e : skipWs (c :: s) = skipWs s := List.dropWhile_cons_of_pos hc
      rw [e]; exact skipWs_skipWs s
    · have e : skipWs (c :: s) = c :: s := List.dropWhile_cons_of_neg hc
      rw [e]; exact skipWs_cons (by simpa using hc) s

theorem scanValue_skipWs : ∀ (n : Nat) (s : List Char), scanValue n (skipWs s) = scanValue n s
  | 0, _ => rfl
  | _ + 1, s => by simp only [scanValue, skipWs_skipWs]

theorem scanItems_skipWs : ∀ (n : Nat) (s : List Char), scanItems n (skipWs s) = scanItems n s
  | 0, _ => rfl
  | n + 1, s => by simp only [scanItems, scanValue_skipWs]

/-- 値は `]` では始まらない。 -/
theorem scanValue_head {n : Nat} {s x : List Char} (h : scanValue n s = some x) : (skipWs s).head? ≠ some ']' := by
  rcases n with _ | n
  · cases h
  rcases hs : skipWs s with _ | ⟨c, r⟩
  · simp
  rintro ⟨⟩
  simp [scanValue, hs, scanNumber, dropMinus, scanInt, scanDigits1, isDigit] at h

theorem scanKey_quote (k r : List Char) : scanKey (escapeJson k ++ '"' :: ':' :: r) = some r := by
  simp [scanKey, scanString_quote, skipWs_cons (c := ':') rfl]

/-- member を一つ読む：名前と `:` を読み、値を読んだ後ろを `scanNext` に渡す。 -/
theorem scanMembers_member (k : List Char) (v : JVal) {n : Nat} {r x : List Char}
    (hv : scanValue n (JVal.render v ++ r) = some x) :
    scanMembers (n + 1) (quoteJson k ++ ':' :: (JVal.render v ++ r)) = scanNext '\x7d' (scanMembers n) (some x) := by
  simp only [quoteJson, List.cons_append, List.append_assoc, List.singleton_append, List.nil_append,
    scanMembers, skipWs_cons (c := '"') rfl, if_pos, scanKey_quote, Option.some_bind, hv]

theorem renderMembers_cons (m : List Char × JVal) (ms : List (List Char × JVal)) :
    ∃ r, renderMembers (m :: ms) = '"' :: r := by
  rcases ms with _ | ⟨m', ms⟩ <;> exact ⟨_, rfl⟩

mutual
/-- **書いた木は JSON の値として読める。** そのまま書いた文字列がどれも JSON の値なら、書いた文字の
後ろに区切りで始まるものが続いても、ちょうど書いた分を一つの値として読む。 -/
theorem scanValue_render : ∀ (v : JVal), v.rawOk = true → ∀ {n : Nat} {t : List Char},
    2 * (JVal.render v).length + 2 ≤ n → Follows t → scanValue n (JVal.render v ++ t) = some t
  | _, _, 0, _, hn, _ => absurd hn (by omega)
  | .str s, _, n + 1, _, _, ht => scanValue_str s n ht
  | .num k, _, n + 1, _, _, ht => scanValue_num k n ht
  | .bool b, _, n + 1, _, _, ht => scanValue_bool b n ht
  | .raw _, h, n + 1, _, hn, ht => scanValue_jsonValueText h hn ht
  | .obj [], _, n + 1, _, _, ht => by
    simp [JVal.render, renderMembers, scanValue, skipWs_cons, isJsonWs, scanOpen, ht.skipWs_eq]
  | .obj (m :: ms), h, n + 1, t, hn, ht => by
    obtain ⟨r, hr⟩ := renderMembers_cons m ms
    have hm := scanMembers_render (m :: ms) (List.cons_ne_nil _ _) h (n := n) (t := t)
      (by simp only [JVal.render, List.length_cons, List.length_append, List.length_singleton] at hn; omega) ht
    rw [hr] at hm
    simp only [JVal.render, List.cons_append, List.append_assoc, List.singleton_append, scanValue,
      skipWs_cons (c := '\x7b') rfl, if_pos, scanOpen, hr, skipWs_cons (c := '"') rfl]
    simpa using hm
  | .arr [], _, n + 1, _, _, ht => by
    simp [JVal.render, renderItems, scanValue, skipWs_cons, isJsonWs, scanOpen, ht.skipWs_eq]
  | .arr (v :: vs), h, n + 1, t, hn, ht => by
    have hi := scanItems_render (v :: vs) (List.cons_ne_nil _ _) h (n := n) (t := t)
      (by simp only [JVal.render, List.length_cons, List.length_append, List.length_singleton] at hn; omega) ht
    -- 最初の要素は値なので `]` では始まらず、空の array とは読まれない
    have hhead : (skipWs (renderItems (v :: vs) ++ ']' :: t)).head? ≠ some ']' := by
      rcases n with _ | n
      · cases hi
      rcases e : scanValue n (renderItems (v :: vs) ++ ']' :: t) with _ | x
      · simp [scanItems, e, scanNext] at hi
      · exact scanValue_head e
    simp only [JVal.render, List.cons_append, List.append_assoc, List.singleton_append, List.nil_append,
      scanValue, skipWs_cons (c := '[') rfl, show ('[' : Char) ≠ '\x7b' from by decide, if_false, if_true,
      scanOpen]
    rw [if_neg hhead, scanItems_skipWs, hi]

theorem scanMembers_render : ∀ (ms : List (List Char × JVal)), ms ≠ [] → membersRawOk ms = true →
    ∀ {n : Nat} {t : List Char}, 2 * (renderMembers ms).length + 3 ≤ n → Follows t →
      scanMembers n (renderMembers ms ++ '\x7d' :: t) = some t
  | [], h, _, _, _, _, _ => absurd rfl h
  | _ :: _, _, _, 0, _, hn, _ => absurd hn (by omega)
  | [(k, v)], _, h, n + 1, t, hn, ht => by
    simp only [membersRawOk, Bool.and_true] at h
    have hv := scanValue_render v h (n := n) (t := '\x7d' :: t)
      (by simp only [renderMembers, quoteJson, List.length_append, List.length_cons] at hn; omega)
      (fun c hc => by cases hc; exact .inr (.inr rfl))
    rw [renderMembers, List.append_assoc, List.cons_append, scanMembers_member k v hv]
    simp [scanNext, ht.skipWs_eq]
  | (k, v) :: m :: ms, _, h, n + 1, t, hn, ht => by
    replace h := Bool.and_eq_true_iff.mp h
    simp only [renderMembers, quoteJson, List.length_append, List.length_cons] at hn
    have hrest := scanMembers_render (m :: ms) (List.cons_ne_nil _ _) h.2 (n := n) (t := t) (by omega) ht
    have hv := scanValue_render v h.1 (n := n) (t := ',' :: (renderMembers (m :: ms) ++ '\x7d' :: t))
      (by omega) (fun c hc => by cases hc; exact .inl rfl)
    simp only [renderMembers, List.append_assoc, List.cons_append]
    rw [scanMembers_member k v hv]
    simp only [scanNext, if_true, hrest]

theorem scanItems_render : ∀ (vs : List JVal), vs ≠ [] → itemsRawOk vs = true →
    ∀ {n : Nat} {t : List Char}, 2 * (renderItems vs).length + 3 ≤ n → Follows t →
      scanItems n (renderItems vs ++ ']' :: t) = some t
  | [], h, _, _, _, _, _ => absurd rfl h
  | _ :: _, _, _, 0, _, hn, _ => absurd hn (by omega)
  | [v], _, h, n + 1, t, hn, ht => by
    simp only [itemsRawOk, Bool.and_true] at h
    have hv := scanValue_render v h (n := n) (t := ']' :: t) (by simp only [renderItems] at hn; omega)
      (fun c hc => by cases hc; exact .inr (.inl rfl))
    simp only [renderItems, scanItems, hv, scanNext, ht.skipWs_eq]
    rfl
  | v :: w :: vs, _, h, n + 1, t, hn, ht => by
    replace h := Bool.and_eq_true_iff.mp h
    simp only [renderItems, List.length_append, List.length_cons] at hn
    have hrest := scanItems_render (w :: vs) (List.cons_ne_nil _ _) h.2 (n := n) (t := t) (by omega) ht
    have hv := scanValue_render v h.1 (n := n) (t := ',' :: (renderItems (w :: vs) ++ ']' :: t))
      (by omega) (fun c hc => by cases hc; exact .inl rfl)
    simp only [renderItems, List.append_assoc, List.cons_append, scanItems, hv, scanNext, if_true, hrest]
end

/-! ## そのまま書かれる文字列 -/

/-- 文字列の中にそのまま書ける文字：`"` でも `\` でも制御文字でもない。 -/
def plainChar (c : Char) : Bool := c != '"' && c != '\\' && 0x20 ≤ c.toNat

theorem escapeJson_plain : ∀ l : List Char, l.all plainChar → escapeJson l = l
  | [], _ => rfl
  | c :: l, h => by
    simp only [List.all_cons, Bool.and_eq_true, plainChar, bne_iff_ne, ne_eq, decide_eq_true_eq] at h
    obtain ⟨⟨⟨hq, hb⟩, hc⟩, hl⟩ := h
    simp [escapeJson, escapeChar, hq, hb, Nat.not_lt.mpr hc, escapeJson_plain l hl]

theorem digitChar_plain : ∀ d < 16, plainChar (Nat.digitChar d) = true := by decide

theorem toDigitsCore_plain (fuel n : Nat) (ds : List Char) (h : ds.all plainChar) :
    (Nat.toDigitsCore 16 fuel n ds).all plainChar := by
  induction fuel generalizing n ds with
  | zero => exact h
  | succ fuel ih =>
    have hd := digitChar_plain (n % 16) (Nat.mod_lt _ (by decide))
    show (if n / 16 = 0 then Nat.digitChar (n % 16) :: ds
      else Nat.toDigitsCore 16 fuel (n / 16) (Nat.digitChar (n % 16) :: ds)).all plainChar
    split
    · simp [hd, h]
    · exact ih _ _ (by simp [hd, h])

theorem hex_plain (c : Nat) : (hex c).all plainChar = true := toDigitsCore_plain _ _ [] rfl

/-- 文字列の writer が書く文字列は JSON の値。 -/
theorem jsonValueText_quote (s : List Char) : jsonValueText (quoteJson s) = true :=
  decide_eq_true (by simpa using scanValue_str s _ Follows.nil)

/-- `fprintf(f, "\"%x\"", code)` の書く文字列は JSON の文字列。 -/
theorem jsonValueText_hexString (c : Nat) : jsonValueText ('"' :: (hex c ++ ['"'])) = true := by
  simpa [quoteJson, escapeJson_plain _ (hex_plain c)] using jsonValueText_quote (hex c)

/-- partition の object でそのまま書かれるのは type の `"%x"` だけで、どれも JSON の文字列。 -/
theorem partitionEvs_raw (env : Env) (dev : Option (List Char)) (dp : Script) (pa : Partition) :
    (partitionEvs env dev dp pa).1.all (fun e => e.rawText.all jsonValueText) := by
  simp only [partitionEvs, List.all_cons, List.all_append, Bool.and_eq_true]
  and_intros <;> (repeat' split) <;>
    first | rfl | exact (Bool.and_true _).trans (jsonValueText_hexString _)

theorem partitionsEvs_raw (env : Env) (dev : Option (List Char)) (t : List Partition) (dp : Script) :
    (partitionsEvs env dev dp t).1.all (fun e => e.rawText.all jsonValueText) := by
  induction t generalizing dp with
  | nil => rfl
  | cons pa t ih => simp [partitionsEvs, partitionEvs_raw, ih]

theorem partitionsArray_raw (env : Env) (dp : Script) :
    (partitionsArray env dp).1.all (fun e => e.rawText.all jsonValueText) := by
  unfold partitionsArray
  split <;> simp only [List.all_cons, List.all_append, List.all_nil, partitionsEvs_raw]; rfl

theorem headerEv_raw (fi : Header) :
    (headerEv fi).rawText.all jsonValueText = (!(jsonHeaderName fi.name).2 || jsonValueText fi.data) := by
  unfold headerEv
  split <;> simp_all [JsonEv.rawText]

theorem headers_raw (hs : List Header) :
    (hs.map headerEv).all (fun e => e.rawText.all jsonValueText) =
      hs.all fun fi => !(jsonHeaderName fi.name).2 || jsonValueText fi.data := by
  induction hs with
  | nil => rfl
  | cons fi hs ih => simp only [List.map_cons, List.all_cons, headerEv_raw, ih]

/-! ## writer の不変条件 -/

/-- 開いている入れ物の中身が `rawOk`。 -/
def Frame.rawOk : Frame → Bool
  | .obj _ ms => membersRawOk ms
  | .arr _ vs => itemsRawOk vs

theorem membersRawOk_append (ms ms' : List (List Char × JVal)) :
    membersRawOk (ms ++ ms') = (membersRawOk ms && membersRawOk ms') := by
  induction ms with
  | nil => rfl
  | cons m ms ih => simp [membersRawOk, ih, Bool.and_assoc]

theorem itemsRawOk_append (vs vs' : List JVal) :
    itemsRawOk (vs ++ vs') = (itemsRawOk vs && itemsRawOk vs') := by
  induction vs with
  | nil => rfl
  | cons v vs ih => simp [itemsRawOk, ih, Bool.and_assoc]

theorem Frame.add_rawOk {f f' : Frame} {k : Option (List Char)} {v : JVal} (hf : f.rawOk = true)
    (hv : v.rawOk = true) (h : f.add k v = some f') : f'.rawOk = true := by
  rcases f with ⟨n, ms⟩ | ⟨n, vs⟩ <;> rcases k with _ | k <;> cases h <;>
    simp_all [Frame.rawOk, membersRawOk_append, itemsRawOk_append, membersRawOk, itemsRawOk]

/-- 開いている入れ物と閉じた root のどれも、そのまま書いた文字列が JSON の値である。 -/
structure Writer.RawOk (w : Writer) : Prop where
  stack : ∀ f ∈ w.stack, f.rawOk = true
  root : ∀ v ∈ w.root, v.rawOk = true

theorem Writer.addValue_rawOk {w w' : Writer} {k : Option (List Char)} {v : JVal} (hw : w.RawOk)
    (hv : v.rawOk = true) (h : w.addValue k v = some w') : w'.RawOk := by
  unfold Writer.addValue at h
  split at h
  · next f rest hs =>
    obtain ⟨f', hf, rfl⟩ := Option.map_eq_some'.mp h
    have hst := hs ▸ hw.stack
    exact ⟨List.forall_mem_cons.2 ⟨Frame.add_rawOk (hst f (List.mem_cons_self _ _)) hv hf,
      fun x hx => hst x (List.mem_cons_of_mem _ hx)⟩, hw.root⟩
  · cases h

/-- **一つの呼び出しは不変条件を保つ。** そのまま書く文字列は JSON の値とする。 -/
theorem Writer.step_rawOk {w w' : Writer} {e : JsonEv} (hw : w.RawOk)
    (he : e.rawText.all jsonValueText = true) (h : w.step e = some w') : w'.RawOk := by
  cases e with
  | rootOpen =>
    simp only [Writer.step] at h
    split_ifs at h
    cases h
    exact ⟨by simp [Frame.rawOk, membersRawOk], by simp⟩
  | rootClose =>
    simp only [Writer.step] at h
    split at h
    · next ms hs =>
      cases h
      exact ⟨by simp, by simpa [JVal.rawOk, Frame.rawOk, hs] using hw.stack⟩
    · cases h
  | objectOpen n | arrayOpen n =>
    simp only [Writer.step] at h
    split_ifs at h
    cases h
    exact ⟨List.forall_mem_cons.2 ⟨by simp [Frame.rawOk, membersRawOk, itemsRawOk], hw.stack⟩, hw.root⟩
  | objectClose | arrayClose =>
    simp only [Writer.step] at h
    split at h
    · next n ms rest hs =>
      have hst := hs ▸ hw.stack
      refine Writer.addValue_rawOk (w := { w with stack := rest })
        ⟨fun f hf => hst f (List.mem_cons_of_mem _ hf), hw.root⟩ ?_ h
      simpa [JVal.rawOk, Frame.rawOk] using hst _ (List.mem_cons_self _ _)
    · cases h
  | valueS k s | valueU64 k s | valueBoolean k s => exact Writer.addValue_rawOk hw (by rfl) h
  | valueRaw k s => exact Writer.addValue_rawOk hw (by simpa [JsonEv.rawText] using he) h

/-- 呼び出しの列の全体でも保つ。 -/
theorem foldlM_rawOk : ∀ (evs : List JsonEv) {w w' : Writer}, w.RawOk →
    evs.all (fun e => e.rawText.all jsonValueText) = true → evs.foldlM Writer.step w = some w' → w'.RawOk
  | [], _, _, hw, _, h => by cases h; exact hw
  | e :: evs, w, w', hw, he, h => by
    simp only [List.all_cons, Bool.and_eq_true] at he
    obtain ⟨w₁, h₁, h₂⟩ := Option.bind_eq_some.mp h
    exact foldlM_rawOk evs (Writer.step_rawOk hw he.1 h₁) he.2 h₂

/-- そのまま書く文字列がどれも JSON の値なら、できた木も。 -/
theorem build_rawOk {evs : List JsonEv} {v : JVal} (he : evs.all (fun e => e.rawText.all jsonValueText) = true)
    (h : build evs = some v) : v.rawOk = true := by
  obtain ⟨w, hw, hv⟩ := Option.bind_eq_some.mp h
  split_ifs at hv
  exact (foldlM_rawOk evs ⟨by simp, by simp⟩ he hw).root v hv

/-- 書かれた文書の文字。入れ子が閉じていなければ `none`。 -/
def documentText (evs : List JsonEv) : Option (List Char) := (build evs).map JVal.render

/--
**数としてそのまま書く header の値が JSON の値なら、書かれた文書は正しい JSON。**

どの script についても、呼び出しの列は `"partitiontable"` の object を一つ持つ root になる。
そのまま書かれるのは first-lba、last-lba、sector-size の header の値と type の `"%x"` だけで、
後者はいつも JSON の文字列なので、前の三つの値が JSON の値なら書いた文字の全体が一つの
JSON の値として読める。逆は成り立たない：そのまま書いた値が `,` を含めば、JSON の値でなくても
文書は正しい JSON になりうる。
-/
theorem write_file_json_well_formed (env : Env) (dp : Script) :
    (∃ ms, build (writeFileJson env dp).1 = some (.obj [("partitiontable".toList, .obj ms)])) ∧
      ((∀ fi ∈ dp.headers, (jsonHeaderName fi.name).2 = true → jsonValueText fi.data = true) →
        ∃ text, documentText (writeFileJson env dp).1 = some text ∧ jsonValueText text = true) := by
  obtain ⟨ms, h⟩ := build_writeFileJson env dp
  refine ⟨⟨ms, h⟩, fun hh => ⟨_, by rw [documentText, h]; rfl, ?_⟩⟩
  have he : (writeFileJson env dp).1.all (fun e => e.rawText.all jsonValueText) = true := by
    simp only [writeFileJson, List.all_cons, List.all_append, List.all_nil, partitionsArray_raw,
      headers_raw]
    simpa [JsonEv.rawText, imp_iff_not_or] using hh
  have hv := scanValue_render _ (build_rawOk he h) le_rfl Follows.nil
  rw [List.append_nil] at hv
  exact decide_eq_true hv

-- 逆は成り立たない：JSON の値でない `1,"a":2` をそのまま書いても、member が一つ増えた正しい文書になる
example : jsonValueText "1,\"a\":2".toList = false ∧
    documentText (writeFileJson Env.bare
        { Script.fresh with headers := [⟨"first-lba".toList, "1,\"a\":2".toList⟩] }).1 =
      some "\x7b\"partitiontable\":\x7b\"firstlba\":1,\"a\":2\x7d\x7d".toList ∧
    jsonValueText "\x7b\"partitiontable\":\x7b\"firstlba\":1,\"a\":2\x7d\x7d".toList = true := by
  decide

/--
**`parse_line_header` は first-lba の値を調べないので、読めた script から JSON でない文書が書かれる。**
-/
theorem write_file_json_raw_header :
    (fdiskScriptReadFile Env.bare Script.fresh (.ofText "first-lba: x\n".toList)).1 = 0 ∧
      documentText (writeFileJson Env.bare
        (fdiskScriptReadFile Env.bare Script.fresh (.ofText "first-lba: x\n".toList)).2).1 =
        some "\x7b\"partitiontable\":\x7b\"firstlba\":x\x7d\x7d".toList ∧
      jsonValueText "\x7b\"partitiontable\":\x7b\"firstlba\":x\x7d\x7d".toList = false := by
  decide

end Fdisk
