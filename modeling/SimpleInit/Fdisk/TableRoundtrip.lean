import SimpleInit.Fdisk.Roundtrip

/-!
# partition の表の往復

start と size を持つ partition（bootable はあってもよい）の表は、`write_file_sfdisk` で書いて
`fdisk_script_read_file` で読み直すと、`start=` から後ろの項目が元と同じ順に戻る。

書く側と読む側は `PlainPartition` で出会う。書く側では、そういう partition の行は
`plainLineText`（`N : start=…, size=…` と、あれば `, bootable`）と改行になる
（`partitionLine_plain`）。読む側では、`read_line` がその行を一行読み、`parse_line_nameval` が
`:` の手前を名前として切り、項目を `start=`、`size=`、`bootable` の順に読んで、partition を
表の末尾に足す（`readLine_plain`）。header と partition の間の空行は `read_line` が読み飛ばす。

## 鍵になる並び

値の欄は `%12ju` で右詰めにされ、値の後ろにはすぐ `,` か行末が来る。`next_token` は前の空白を
読み飛ばし、`,` を NUL にして数字だけを切り出し、`,` の後ろの空白も読み飛ばすので、次の項目は
名前から始まる。`size=` と `start=` は二文字目で、`bootable` はどちらとも一文字目で分かれる。
読み直した partition の番号は名前から `partno_from_devname` が決める。それは `Write` の終わりで扱い、ここでは問わない。

## 主な定理

* `readLine_plain` — 書いた partition の行を一行読むと、partition が一つ足される
* `readFileLoop_plainLines` — partition の行を並べた入力を読み切る
* `write_file_sfdisk_roundtrip` — header と、start と size を持つ partition の表は、書いて
  読み直すと戻る
-/

namespace Fdisk

/-! ## 読み直して戻る項目 -/

/-- `write_file_sfdisk` が `start=` から後ろに書く項目。 -/
def Partition.written (pa : Partition) :
    Option Nat × Option Nat × Bool × Option PartType × Option (List Char) × Option (List Char) ×
      Option (List Char) :=
  (pa.start, pa.size, pa.boot, pa.type, pa.uuid, pa.name, pa.attrs)

/-! ## 値の欄 -/

/-- `pad12 (decimal n)` の値の後に `, ` と次の項目が続く。 -/
theorem valueToken_comma {b : List Char} {p : Nat} {c : Char} {R : List Char} (n : Nat)
    (h : b.drop p = pad12 (decimal n) ++ ',' :: ' ' :: c :: R) (hc : isBlank c = false) :
    ∃ tk b' p', isDefaultValue b p = none ∧ nextToken b p = some (tk, b', p') ∧
      b'.drop tk = decimal n ++ '\x00' :: ' ' :: c :: R ∧ b'.drop p' = c :: R := by
  obtain ⟨pad, d, ds, hpad, hdec, hbl, hds⟩ := pad12_decimal_cons n
  rw [hpad] at h
  rw [hdec]
  have hd := hds d (List.mem_cons_self _ _)
  have h' : b.drop p = pad ++ d :: (ds ++ ',' :: ' ' :: c :: R) := by rw [h]; simp
  have he : p + pad.length + 1 + ds.length = p + (pad ++ d :: ds).length := by simp; omega
  have hsp : b.drop (p + pad.length + 1 + ds.length + 1) = [' '] ++ c :: R := by
    have := drop_add_of_drop (show b.drop p = (pad ++ d :: ds ++ [',']) ++ ' ' :: c :: R by rw [h]; simp)
    rw [List.singleton_append, ← this]; congr 1; simp; omega
  have hsk := skipBlank_of_drop hsp (by simp [isBlank]) hc
  have hpk : (poke b (p + pad.length + 1 + ds.length) '\x00').drop p =
      pad ++ (d :: ds ++ '\x00' :: ' ' :: c :: R) := by
    rw [he, drop_poke_of_drop '\x00' (show b.drop p = (pad ++ d :: ds) ++ ',' :: ' ' :: c :: R from h),
      List.append_assoc]
  refine ⟨_, _, _, isDefaultValue_digit h' hbl hd,
    nextToken_comma h' hbl (tokenChar_of_isDigit hd)
      fun x hx => tokenChar_of_isDigit (hds x (List.mem_cons_of_mem _ hx)),
    drop_add_of_drop hpk, ?_⟩
  rw [hsk, drop_poke_of_lt _ _ (by simp; omega)]
  exact drop_add_of_drop hsp

/-- `pad12 (decimal n)` の値で行が終わる。バッファは変わらない。 -/
theorem valueToken_nul {b : List Char} {p : Nat} {R : List Char} (n : Nat)
    (h : b.drop p = pad12 (decimal n) ++ '\x00' :: R) :
    ∃ tk b' p', isDefaultValue b p = none ∧ nextToken b p = some (tk, b', p') ∧
      b'.drop tk = decimal n ++ '\x00' :: R ∧ b'.drop p' = '\x00' :: R := by
  obtain ⟨pad, d, ds, hpad, hdec, hbl, hds⟩ := pad12_decimal_cons n
  rw [hpad] at h
  rw [hdec]
  have hd := hds d (List.mem_cons_self _ _)
  have h' : b.drop p = pad ++ d :: (ds ++ '\x00' :: R) := by rw [h]; simp
  refine ⟨_, _, _, isDefaultValue_digit h' hbl hd,
    nextToken_nul h' hbl (tokenChar_of_isDigit hd)
      fun x hx => tokenChar_of_isDigit (hds x (List.mem_cons_of_mem _ hx)),
    drop_add_of_drop (by rw [h]; simp), ?_⟩
  have := drop_add_of_drop (show b.drop p = (pad ++ d :: ds) ++ '\x00' :: R by rw [h])
  rw [← this]; congr 1; simp; omega

/-! ## 項目の並び -/

/-- `size=` と、あれば `, bootable` を読んで行が終わる。 -/
theorem namevalLoop_sizeTail (env : Env) (st : LineState) {m : Nat} {t : List Char} (boot : Bool)
    (h : st.buf.drop st.pos =
      "size=".toList ++ pad12 (decimal m) ++ (if boot then ", bootable".toList else []) ++ '\x00' :: t)
    (hm : m ≠ sectorUndef) (hpm : env.parseSize (decimal m) = .ok (m, 0)) (fuel : Nat) :
    ∃ st', namevalLoop env (fuel + 3) st = (0, st') ∧ st'.script = st.script ∧
      st'.part.written = (st.part.start, some m, st.part.boot || boot, st.part.type, st.part.uuid,
        st.part.name, st.part.attrs) := by
  obtain ⟨hne, hds⟩ := decimal_digits m
  have hp : peek st.buf st.pos ≠ '\x00' := by
    rw [peek_of_drop (show st.buf.drop st.pos = 's' :: _ by rw [h]; rfl)]; decide
  cases boot with
  | false =>
    have h₀ : st.buf.drop st.pos = [] ++ "size=".toList ++ (pad12 (decimal m) ++ '\x00' :: t) := by
      simpa using h
    have hv : st.buf.drop (st.pos + ([] : List Char).length + 5) = pad12 (decimal m) ++ '\x00' :: t := by
      rw [List.length_nil, Nat.add_zero]; exact drop_add_of_drop (show _ = "size=".toList ++ _ from h₀)
    obtain ⟨tk, b', p', hdef, htok, hdrop, hnext⟩ := valueToken_nul m hv
    rw [namevalLoop_field _ hp (namevalField_size env st h₀ (by simp) hdef htok hdrop hne hds hpm),
      namevalLoop_nul _ (peek_of_drop hnext)]
    refine ⟨_, rfl, rfl, ?_⟩
    simp [Partition.written, Partition.setSize, hm]
  | true =>
    have h₀ : st.buf.drop st.pos = [] ++ "size=".toList ++
        (pad12 (decimal m) ++ ',' :: ' ' :: 'b' :: ("ootable".toList ++ '\x00' :: t)) := by
      rw [h]; simp
    have hv : st.buf.drop (st.pos + ([] : List Char).length + 5) =
        pad12 (decimal m) ++ ',' :: ' ' :: 'b' :: ("ootable".toList ++ '\x00' :: t) := by
      rw [List.length_nil, Nat.add_zero]; exact drop_add_of_drop (show _ = "size=".toList ++ _ from h₀)
    obtain ⟨tk, b', p', hdef, htok, hdrop, hnext⟩ := valueToken_comma m hv (by decide)
    obtain ⟨st₂, hf₂, hd₂, hs₂, hp₂⟩ := namevalField_bootable env
      { st with buf := b', pos := p', part := { ({ st.part with sizeExplicit := true }).setSize m with
        resize := .none, endFollowDefault := false } }
      (show b'.drop p' = [] ++ "bootable".toList ++ '\x00' :: t by rw [hnext]; rfl) (by simp)
    rw [namevalLoop_field _ hp (namevalField_size env st h₀ (by simp) hdef htok hdrop hne hds hpm),
      namevalLoop_field _ (by rw [peek_of_drop hnext]; decide) hf₂, namevalLoop_nul _ (peek_of_drop hd₂)]
    refine ⟨_, rfl, hs₂, ?_⟩
    simp [Partition.written, Partition.setSize, hm, hp₂]

/-- ` start=` から行の終わりまでを読む。 -/
theorem namevalLoop_plain (env : Env) (st : LineState) {n m : Nat} {t : List Char} (boot : Bool)
    (h : st.buf.drop st.pos = " start=".toList ++ pad12 (decimal n) ++ ", size=".toList ++
      pad12 (decimal m) ++ (if boot then ", bootable".toList else []) ++ '\x00' :: t)
    (hn : n ≠ sectorUndef) (hm : m ≠ sectorUndef) (hpn : env.parseSize (decimal n) = .ok (n, 0))
    (hpm : env.parseSize (decimal m) = .ok (m, 0)) (fuel : Nat) :
    ∃ st', namevalLoop env (fuel + 4) st = (0, st') ∧ st'.script = st.script ∧
      st'.part.written = (some n, some m, st.part.boot || boot, st.part.type, st.part.uuid,
        st.part.name, st.part.attrs) := by
  obtain ⟨hne, hds⟩ := decimal_digits n
  have h₀ : st.buf.drop st.pos = [' '] ++ "start=".toList ++ (pad12 (decimal n) ++ ',' :: ' ' :: 's' ::
      ("ize=".toList ++ pad12 (decimal m) ++ (if boot then ", bootable".toList else []) ++ '\x00' :: t)) := by
    rw [h]; simp
  have hv : st.buf.drop (st.pos + [' '].length + 6) = pad12 (decimal n) ++ ',' :: ' ' :: 's' ::
      ("ize=".toList ++ pad12 (decimal m) ++ (if boot then ", bootable".toList else []) ++ '\x00' :: t) :=
    drop_add_of_drop (show _ = [' '] ++ "start=".toList ++ _ by rw [h₀])
  obtain ⟨tk, b', p', hdef, htok, hdrop, hnext⟩ := valueToken_comma n hv (by decide)
  have hp : peek st.buf st.pos ≠ '\x00' := by
    rw [peek_of_drop (show st.buf.drop st.pos = ' ' :: _ by rw [h]; rfl)]; decide
  rw [show fuel + 4 = fuel + 3 + 1 from rfl,
    namevalLoop_field _ hp (namevalField_start env st h₀ (by simp [isBlank]) hdef htok hdrop hne hds hpn)]
  obtain ⟨st', h₁, h₂, h₃⟩ := namevalLoop_sizeTail env { st with
      buf := b'
      pos := p'
      part := { st.part.setStart n with movestart := .none, startFollowDefault := false } } boot
    (show b'.drop p' = "size=".toList ++ pad12 (decimal m) ++
      (if boot then ", bootable".toList else []) ++ '\x00' :: t by rw [hnext]; rfl) hm hpm fuel
  refine ⟨st', h₁, h₂, ?_⟩
  rw [h₃]
  simp [Partition.setStart, hn]

/-! ## 行の頭 -/

/-- partition の行の頭の名前：空でなく、空白類、`:`、`=`、NUL、`#` を含まない。 -/
structure PlainHead (hd : List Char) : Prop where
  ne_nil : hd ≠ []
  plain : ∀ c ∈ hd, isSpace c = false ∧ c ≠ ':' ∧ c ≠ '=' ∧ c ≠ '\x00' ∧ c ≠ '#'

/-- 行の頭の文字は空白でも NUL でも `#` でもない。 -/
theorem plainHead_head {hd : List Char} (hh : PlainHead hd) :
    ∃ c cs, hd = c :: cs ∧ isBlank c = false ∧ c ≠ '\x00' ∧ c ≠ '#' := by
  obtain ⟨c, cs, rfl⟩ := List.exists_cons_of_ne_nil hh.ne_nil
  obtain ⟨hsp, -, -, hn, hh⟩ := hh.plain c (List.mem_cons_self c cs)
  exact ⟨c, cs, rfl, isBlank_eq_false hsp, hn, hh⟩

theorem rtrimLength_append_space {hd : List Char} (h : ∀ c ∈ hd, isSpace c = false) :
    rtrimLength (hd ++ [' ']) = hd.length := by
  cases hr : hd.reverse with
  | nil => simp [List.reverse_eq_nil_iff.mp hr, rtrimLength, isSpace]
  | cons c cs =>
    have hc : isSpace c = false := h c (List.mem_reverse.mp (hr ▸ List.mem_cons_self c cs))
    rw [rtrimLength, List.reverse_append, List.reverse_singleton, List.singleton_append,
      List.dropWhile_cons_of_pos rfl, hr, List.dropWhile_cons_of_neg (by simp [hc]), ← hr,
      List.length_reverse]

theorem nul_not_mem_lineText {hd R : List Char} (hh : PlainHead hd) (hR : '\x00' ∉ R) :
    '\x00' ∉ hd ++ " :".toList ++ " start=".toList ++ R := by
  simp only [List.mem_append, not_or]
  exact ⟨⟨⟨fun h => (hh.plain _ h).2.2.2.1 rfl, by decide⟩, by decide⟩, hR⟩

/-- 行で最初の `:` は名前の後ろの ` :` のもの。 -/
theorem strchrAt_lineText_colon {hd R : List Char} (hh : PlainHead hd) (hR : '\x00' ∉ R)
    (t : List Char) :
    strchrAt (hd ++ " :".toList ++ " start=".toList ++ R ++ '\x00' :: t) 0 ':' = some (hd.length + 1) := by
  rw [strchrAt_nul (nul_not_mem_lineText hh hR), show hd ++ " :".toList ++ " start=".toList ++ R =
    (hd ++ [' ']) ++ ':' :: (" start=".toList ++ R) by simp, indexOf?_append_cons]
  · simp
  · simpa using fun h => (hh.plain _ h).2.1 rfl

/-- 行で最初の `=` は `start=` のもの。 -/
theorem strchrAt_lineText_equals {hd R : List Char} (hh : PlainHead hd) (hR : '\x00' ∉ R)
    (t : List Char) :
    strchrAt (hd ++ " :".toList ++ " start=".toList ++ R ++ '\x00' :: t) 0 '=' = some (hd.length + 8) := by
  rw [strchrAt_nul (nul_not_mem_lineText hh hR), show hd ++ " :".toList ++ " start=".toList ++ R =
    (hd ++ " : start".toList) ++ '=' :: R by simp, indexOf?_append_cons]
  · simp
  · simpa using fun h => (hh.plain _ h).2.2.1 rfl

/--
`N :` を読む。`:` を NUL にし、名前の後ろの空白も NUL にして、項目は `:` の後ろから読む。
partition の番号を読めたかどうかによらず、`start=` から後ろの項目はまだ何も無い。
-/
theorem parseLineNameval_head (env : Env) (dp : Script) {hd R : List Char} (hh : PlainHead hd)
    (hR : '\x00' ∉ R) (t : List Char) :
    ∃ pa₀ b₂, pa₀.written = (none, none, false, none, none, none, none) ∧
      b₂.drop (hd.length + 2) = " start=".toList ++ R ++ '\x00' :: t ∧
      parseLineNameval env dp (hd ++ " :".toList ++ " start=".toList ++ R ++ '\x00' :: t) 0 =
        let r := namevalLoop env ((hd ++ " :".toList ++ " start=".toList ++ R ++ '\x00' :: t).length + 1)
          ⟨b₂, hd.length + 2, pa₀, dp⟩
        if r.1 = 0 then (0, addPartition r.2.script r.2.part, r.2.buf) else (r.1, r.2.script, r.2.buf) := by
  have hpoke : poke (hd ++ " :".toList ++ " start=".toList ++ R ++ '\x00' :: t) (hd.length + 1) '\x00' =
      (hd ++ [' ']) ++ '\x00' :: (" start=".toList ++ R ++ '\x00' :: t) := by
    rw [show hd ++ " :".toList ++ " start=".toList ++ R ++ '\x00' :: t =
      (hd ++ [' ']) ++ ':' :: (" start=".toList ++ R ++ '\x00' :: t) by simp,
      show hd.length + 1 = (hd ++ [' ']).length by simp, poke_append_length]
  have hdev : cstr ((hd ++ [' ']) ++ '\x00' :: (" start=".toList ++ R ++ '\x00' :: t)) 0 = hd ++ [' '] := by
    rw [cstr_nul (by simpa using fun h => (hh.plain _ h).2.2.2.1 rfl) _ (Nat.zero_le _), List.drop_zero]
  have h18 : hd.length + 1 < hd.length + 8 := by omega
  simp only [parseLineNameval, strchrAt_lineText_colon hh hR, strchrAt_lineText_equals hh hR,
    Option.all_some, hpoke, hdev, rtrimLength_append_space fun c h => (hh.plain c h).1, h18,
    decide_True, if_true, List.append_eq_nil, List.cons_ne_nil, and_false, if_false, Nat.zero_add]
  refine ⟨_, _, ?_, ?_, rfl⟩
  · split <;> rfl
  · rw [drop_poke_of_lt _ _ (by omega), show hd ++ [' '] ++ '\x00' :: (" start=".toList ++ R ++ '\x00' :: t) =
      (hd ++ [' ', '\x00']) ++ (" start=".toList ++ R ++ '\x00' :: t) by simp]
    exact List.drop_left' (by simp)

/-! ## 一行の partition -/

/-- start と size を書いた partition の行の、改行の前までの文字。 -/
def plainLineText (hd : List Char) (n m : Nat) (boot : Bool) : List Char :=
  hd ++ " :".toList ++ " start=".toList ++ pad12 (decimal n) ++ ", size=".toList ++ pad12 (decimal m) ++
    if boot then ", bootable".toList else []

/-- `start=` の後ろの値から行の終わりまでを一つにまとめる。 -/
theorem plainLineText_nul (hd : List Char) (n m : Nat) (boot : Bool) (t : List Char) :
    plainLineText hd n m boot ++ '\x00' :: t = hd ++ " :".toList ++ " start=".toList ++
      (pad12 (decimal n) ++ ", size=".toList ++ pad12 (decimal m) ++
        (if boot then ", bootable".toList else [])) ++ '\x00' :: t := by
  simp [plainLineText]

theorem nul_not_mem_valuesText (n m : Nat) (boot : Bool) :
    '\x00' ∉ pad12 (decimal n) ++ ", size=".toList ++ pad12 (decimal m) ++
      (if boot then ", bootable".toList else []) := by
  simp only [List.mem_append, not_or]
  refine ⟨⟨⟨fun h => (pad12_decimal_char n _ h).1 rfl, by decide⟩,
    fun h => (pad12_decimal_char m _ h).1 rfl⟩, ?_⟩
  split <;> decide

/-- 書いた partition の行には NUL も改行も `\r` も無い。 -/
theorem plainLineText_char {hd : List Char} (hh : PlainHead hd) (n m : Nat) (boot : Bool) :
    ∀ c ∈ plainLineText hd n m boot, c ≠ '\x00' ∧ c ≠ '\n' ∧ c ≠ '\r' := by
  have lit : ∀ s : List Char, (∀ c ∈ s, c ≠ '\x00' ∧ c ≠ '\n' ∧ c ≠ '\r') →
      ∀ c ∈ s, c ≠ '\x00' ∧ c ≠ '\n' ∧ c ≠ '\r' := fun _ h => h
  intro c hc
  simp only [plainLineText, List.mem_append] at hc
  rcases hc with (((((hc | hc) | hc) | hc) | hc) | hc) | hc
  · obtain ⟨hsp, -, -, hn, -⟩ := hh.plain c hc
    refine ⟨hn, ?_, ?_⟩ <;> rintro rfl <;> exact absurd hsp (by decide)
  · exact lit _ (by decide) c hc
  · exact lit _ (by decide) c hc
  · exact pad12_decimal_char n c hc
  · exact lit _ (by decide) c hc
  · exact pad12_decimal_char m c hc
  · split at hc
    · exact lit _ (by decide) c hc
    · simp at hc

/-- 書いた partition の行を `parse_line_nameval` で読むと、start、size、bootable が戻る。 -/
theorem parseLineNameval_plain (env : Env) (dp : Script) {hd : List Char} (hh : PlainHead hd)
    {n m : Nat} (boot : Bool) (hn : n ≠ sectorUndef) (hm : m ≠ sectorUndef)
    (hpn : env.parseSize (decimal n) = .ok (n, 0)) (hpm : env.parseSize (decimal m) = .ok (m, 0))
    (t : List Char) :
    (parseLineNameval env dp (plainLineText hd n m boot ++ '\x00' :: t) 0).1 = 0 ∧
      ∃ pa, (parseLineNameval env dp (plainLineText hd n m boot ++ '\x00' :: t) 0).2.1 =
        addPartition dp pa ∧ pa.written = (some n, some m, boot, none, none, none, none) := by
  obtain ⟨pa₀, b₂, hw, hdrop, hpl⟩ := parseLineNameval_head env dp hh (nul_not_mem_valuesText n m boot) t
  obtain ⟨k, hk⟩ := Nat.exists_eq_add_of_le' (show 4 ≤ (hd ++ " :".toList ++ " start=".toList ++
      (pad12 (decimal n) ++ ", size=".toList ++ pad12 (decimal m) ++
        (if boot then ", bootable".toList else [])) ++ '\x00' :: t).length + 1 by simp; omega)
  obtain ⟨st', h₁, h₂, h₃⟩ := namevalLoop_plain env ⟨b₂, hd.length + 2, pa₀, dp⟩ boot
    (show b₂.drop (hd.length + 2) = " start=".toList ++ pad12 (decimal n) ++ ", size=".toList ++
      pad12 (decimal m) ++ (if boot then ", bootable".toList else []) ++ '\x00' :: t by rw [hdrop]; simp)
    hn hm hpn hpm k
  rw [plainLineText_nul, hpl, hk]
  simp only [h₁, if_true]
  simp only [Partition.written, Prod.mk.injEq] at hw h₃ ⊢
  refine ⟨trivial, st'.part, by rw [h₂], ?_⟩
  simp [h₃, hw]

/-- `read_buffer` は `N :` で始まり ` start=` の続く行を `parse_line_nameval` に渡す。 -/
theorem readBuffer_nameval (env : Env) (dp : Script) {hd R : List Char} (hh : PlainHead hd)
    (hR : '\x00' ∉ R) (t : List Char) :
    fdiskScriptReadBuffer env dp (hd ++ " :".toList ++ " start=".toList ++ R ++ '\x00' :: t) 0 =
      parseLineNameval env { dp with table := some (dp.table.getD []) }
        (hd ++ " :".toList ++ " start=".toList ++ R ++ '\x00' :: t) 0 := by
  obtain ⟨c, cs, hc, hb, hn0, -⟩ := plainHead_head hh
  have hsk : skipBlank (hd ++ " :".toList ++ " start=".toList ++ R ++ '\x00' :: t) 0 = 0 :=
    @skipBlank_of_drop _ 0 [] _ _ (by rw [hc]; rfl) (by simp) hb
  have hpk : peek (hd ++ " :".toList ++ " start=".toList ++ R ++ '\x00' :: t) 0 ≠ '\x00' := by
    rw [peek_of_drop (by rw [hc]; rfl)]; exact hn0
  have hhdr : isHeaderLine (hd ++ " :".toList ++ " start=".toList ++ R ++ '\x00' :: t) 0 = false := by
    rw [isHeaderLine, strchrAt_lineText_colon hh hR, strchrAt_lineText_equals hh hR]
    simp only [Option.isNone_some, Bool.and_false]
  simp only [fdiskScriptReadBuffer, hsk, if_neg hpk, hhdr, and_false, if_false, Bool.false_eq_true]
  rw [if_pos (by rw [strchrAt_lineText_equals hh hR]; rfl)]

/-- `read_buffer` は書いた partition の行を `parse_line_nameval` に渡し、partition を一つ足す。 -/
theorem readBuffer_plain (env : Env) (dp : Script) {hd : List Char} (hh : PlainHead hd)
    {n m : Nat} (boot : Bool) (hn : n ≠ sectorUndef) (hm : m ≠ sectorUndef)
    (hpn : env.parseSize (decimal n) = .ok (n, 0)) (hpm : env.parseSize (decimal m) = .ok (m, 0))
    (t : List Char) :
    (fdiskScriptReadBuffer env dp (plainLineText hd n m boot ++ '\x00' :: t) 0).1 = 0 ∧
      ∃ pa, (fdiskScriptReadBuffer env dp (plainLineText hd n m boot ++ '\x00' :: t) 0).2.1 =
        addPartition dp pa ∧ pa.written = (some n, some m, boot, none, none, none, none) := by
  have := parseLineNameval_plain env { dp with table := some (dp.table.getD []) } hh boot hn hm hpn hpm t
  rwa [plainLineText_nul, readBuffer_nameval env dp hh (nul_not_mem_valuesText n m boot), ← plainLineText_nul]

/-- **書いた partition の行を一行読む。** partition が一つ足され、入力はその行だけ進む。 -/
theorem readLine_plain (env : Env) {hd : List Char} (hh : PlainHead hd) {n m : Nat} (boot : Bool)
    (hn : n ≠ sectorUndef) (hm : m ≠ sectorUndef) (hpn : env.parseSize (decimal n) = .ok (n, 0))
    (hpm : env.parseSize (decimal m) = .ok (m, 0))
    (hfit : (plainLineText hd n m boot).length + 1 < BUFSIZ) (fuel : Nat) (dp : Script)
    (rest b : List Char) :
    let r := fdiskScriptReadLine env BUFSIZ (fuel + 1) dp
      ⟨plainLineText hd n m boot ++ '\n' :: rest, false⟩ b
    r.1 = 0 ∧ r.2.2.1 = ⟨rest, false⟩ ∧ ∃ pa, r.2.1 = addPartition { dp with nlines := dp.nlines + 1 } pa ∧
      pa.written = (some n, some m, boot, none, none, none, none) := by
  obtain ⟨c, cs, hc, hb, -, hh'⟩ := plainHead_head hh
  have hch := plainLineText_char hh n m boot
  obtain ⟨t, ht⟩ := readLine_text env (fun h => (hch _ h).2.1 rfl) (fun h => (hch _ h).1 rfl)
    (fun h => (hch _ (List.mem_of_getLast?_eq_some h)).2.2 rfl) hfit
    (show plainLineText hd n m boot = c :: _ by rw [plainLineText, hc]; rfl) hb hh' fuel dp rest b
  obtain ⟨h₁, pa, h₂, h₃⟩ := readBuffer_plain env { dp with nlines := dp.nlines + 1 } hh boot hn hm hpn hpm t
  rw [ht]
  exact ⟨h₁, rfl, pa, h₂, h₃⟩

/-! ## 書く側 -/

/-- `write_file_sfdisk` が partition の行の頭に書く名前：`fdisk_partname` の device 名か、番号。 -/
def partitionHead (env : Env) (devname : Option (List Char)) (pa : Partition) : List Char :=
  (devname.bind (env.partname · (partnoNext pa))).getD (decimal (partnoNext pa))

/--
書いて読み直せる partition。行の頭の名前は `PlainHead`、start と size があって
`parse_size` が十進の表記をその値に読み、type、uuid、name、attrs は無く、行は行バッファに収まる。
-/
structure PlainPartition (env : Env) (devname : Option (List Char)) (pa : Partition) : Prop where
  head : PlainHead (partitionHead env devname pa)
  start : ∃ n, pa.start = some n ∧ n ≠ sectorUndef ∧ env.parseSize (decimal n) = .ok (n, 0)
  size : ∃ m, pa.size = some m ∧ m ≠ sectorUndef ∧ env.parseSize (decimal m) = .ok (m, 0)
  type_none : pa.type = none
  uuid_none : pa.uuid = none
  name_none : pa.name = none
  attrs_none : pa.attrs = none
  fits : ∀ dp, (partitionLine env devname dp pa).1.length < BUFSIZ

/-- 書いて読み直せる partition の行は `plainLineText` と改行で、script は変わらない。 -/
theorem partitionLine_plain {env : Env} {devname : Option (List Char)} {pa : Partition} {n m : Nat}
    (hpa : PlainPartition env devname pa) (hn : pa.start = some n) (hm : pa.size = some m)
    (dp : Script) :
    partitionLine env devname dp pa =
      (plainLineText (partitionHead env devname pa) n m pa.boot ++ ['\n'], dp) := by
  simp only [partitionLine, hn, hm, hpa.type_none, hpa.uuid_none, hpa.name_none, hpa.attrs_none,
    plainLineText, partitionHead]
  rcases devname.bind (env.partname · (partnoNext pa)) with _ | p <;> simp

/-! ## partition の行を並べた入力 -/

/-- **ループの一周。** 空の行をいくつか読み飛ばし、書いた partition の行を一行読んで、
`start=` から後ろの項目が同じ partition を表の末尾に足す。 -/
theorem readFileLoop_plainLine (env : Env) {devname : Option (List Char)} {pa : Partition}
    (hpa : PlainPartition env devname pa) (dp₀ : Script) (j fuel : Nat) (rc : Int) (dp : Script)
    (rest b : List Char) :
    ∃ pa' b', pa'.written = pa.written ∧
      readFileLoop env (fuel + 1) rc dp
        ⟨List.replicate j '\n' ++ ((partitionLine env devname dp₀ pa).1 ++ rest), false⟩ b =
      readFileLoop env fuel 0 (addPartition { dp with nlines := dp.nlines + j + 1 } pa')
        ⟨rest, false⟩ b' := by
  obtain ⟨n, hn, hnu, hpn⟩ := hpa.start
  obtain ⟨m, hm, hmu, hpm⟩ := hpa.size
  have hline := partitionLine_plain hpa hn hm dp₀
  have hfit : (plainLineText (partitionHead env devname pa) n m pa.boot).length + 1 < BUFSIZ := by
    simpa [hline] using hpa.fits dp₀
  have hread := readLine_plain env hpa.head pa.boot hnu hmu hpn hpm hfit
    ((plainLineText (partitionHead env devname pa) n m pa.boot).length + rest.length + 1)
    { dp with nlines := dp.nlines + j } rest
  set L := plainLineText (partitionHead env devname pa) n m pa.boot
  obtain ⟨b₁, hb⟩ := readLine_blanks env j (L.length + rest.length + 1 + 1) dp (L ++ '\n' :: rest) b
  rcases hr : fdiskScriptReadLine env BUFSIZ (L.length + rest.length + 1 + 1)
    { dp with nlines := dp.nlines + j } ⟨L ++ '\n' :: rest, false⟩ b₁ with ⟨r₁, dp', f', b'⟩
  obtain ⟨rfl, rfl, pa', hdp', hw⟩ := hr ▸ hread b₁
  refine ⟨pa', b', ?_, ?_⟩
  · rw [hw, Partition.written, hn, hm, hpa.type_none, hpa.uuid_none, hpa.name_none, hpa.attrs_none]
  · have hf : (List.replicate j '\n' ++ (L ++ '\n' :: rest)).length + 1 =
        L.length + rest.length + 1 + 1 + j := by simp; omega
    rw [hline, List.append_assoc, List.singleton_append]
    simp only [readFileLoop, Bool.false_eq_true, if_false, hf, hb, hr, ne_eq, not_true_eq_false,
      false_and]
    rw [show dp' = _ from hdp']

/--
**partition の行を並べた入力を読み切る。** 前に空の行がいくつあってもよい。読んだ partition の
`start=` から後ろの項目は、書いた partition のものと順に同じで、header は変わらない。
-/
theorem readFileLoop_plainLines (env : Env) (devname : Option (List Char)) (dp₀ : Script) :
    ∀ (ps : List Partition) (j fuel : Nat) (rc : Int) (dp : Script) (b : List Char),
    (∀ pa ∈ ps, PlainPartition env devname pa) →
    j + (ps.flatMap fun pa => (partitionLine env devname dp₀ pa).1).length < fuel →
    let r := readFileLoop env fuel rc dp
      ⟨List.replicate j '\n' ++ ps.flatMap fun pa => (partitionLine env devname dp₀ pa).1, false⟩ b
    r.1 = 1 ∧ r.2.headers = dp.headers ∧
      (r.2.table.getD []).map Partition.written =
        (dp.table.getD []).map Partition.written ++ ps.map Partition.written
  | [], j, fuel + 1, rc, dp, b, _, _ => by
    obtain ⟨b', h⟩ := readLine_blanks env j 1 dp [] b
    have hf : (List.replicate j '\n' ++ ([] : List Partition).flatMap
        fun pa => (partitionLine env devname dp₀ pa).1).length + 1 = 1 + j := by simp; omega
    obtain ⟨h₁, h₂⟩ := readLine_end env 0 { dp with nlines := dp.nlines + j } b'
    simp only [readFileLoop, Bool.false_eq_true, if_false, hf]
    simp only [List.flatMap_nil, List.append_nil] at h ⊢
    rw [h, h₁, h₂]
    simp [ENOTSUP]
  | pa :: ps, j, fuel + 1, rc, dp, b, hok, hlen => by
    obtain ⟨pa', b', hw, hstep⟩ := readFileLoop_plainLine env (hok pa (List.mem_cons_self _ _)) dp₀ j
      fuel rc dp (ps.flatMap fun pa => (partitionLine env devname dp₀ pa).1) b
    have ih := readFileLoop_plainLines env devname dp₀ ps 0 fuel 0
      (addPartition { dp with nlines := dp.nlines + j + 1 } pa') b'
      (fun g hg => hok g (List.mem_cons_of_mem _ hg)) (by
        have := partitionLine_length_pos env devname dp₀ pa
        simp only [List.flatMap_cons, List.length_append] at hlen
        omega)
    simp only [List.replicate_zero, List.nil_append] at ih
    simp only [List.flatMap_cons, hstep]
    obtain ⟨i₁, i₂, i₃⟩ := ih
    refine ⟨i₁, i₂, ?_⟩
    rw [i₃]
    simp [addPartition, hw]

/-! ## 往復 -/

/-- partition があり attrs が無ければ、出力は header の行、空の行、partition の行の順に並ぶ。 -/
theorem writeFileSfdisk_partitions (env : Env) {dp : Script} {pa : Partition} {t : List Partition}
    (hg : dp.table.getD [] = pa :: t) (ha : ∀ g ∈ pa :: t, g.attrs = none) :
    (writeFileSfdisk env dp).1 = dp.headers.flatMap headerLine ++
      (List.replicate 1 '\n' ++ (pa :: t).flatMap fun pa => (partitionLine env (devnameOf dp.headers) dp pa).1) := by
  have ht : dp.table = some (pa :: t) := by
    cases h : dp.table with
    | none => simp [h] at hg
    | some l => rw [← hg, h, Option.getD_some]
  simp only [writeFileSfdisk, ht]
  rw [partitionLines_fst env _ dp _ ha]
  rfl

/-- 書いて読み直すと header と partition が戻る。`fdisk_script_read_context` の往復もこれを引く。 -/
theorem readFile_writeFileSfdisk (env : Env) (dp : Script) (hnd : NoDupKeys dp.headers)
    (hok : ∀ fi ∈ dp.headers, HeaderOk env fi)
    (hpa : ∀ pa ∈ dp.table.getD [], PlainPartition env (devnameOf dp.headers) pa) :
    (fdiskScriptReadFile env Script.fresh (.ofText (writeFileSfdisk env dp).1)).1 = 0 ∧
      (fdiskScriptReadFile env Script.fresh (.ofText (writeFileSfdisk env dp).1)).2.headers =
        dp.headers ∧
      ((fdiskScriptReadFile env Script.fresh (.ofText (writeFileSfdisk env dp).1)).2.table.getD []).map
        Partition.written = (dp.table.getD []).map Partition.written := by
  rcases hg : dp.table.getD [] with _ | ⟨pa, t⟩
  · obtain ⟨h₁, h₂, h₃⟩ := readFileLoop_headerLines env dp.headers
      ((dp.headers.flatMap headerLine).length + 2) 1 Script.fresh [] hok hnd rfl (by omega)
    simp only [fdiskScriptReadFile, Stream.ofText, writeFileSfdisk_headers env hg, h₁, h₂, h₃]
    exact ⟨rfl, rfl, trivial⟩
  · rw [hg] at hpa
    have hw := writeFileSfdisk_partitions env hg fun g hg => (hpa g hg).attrs_none
    have hhs := length_le_flatMap_headerLine dp.headers
    obtain ⟨k, hk⟩ := Nat.exists_eq_add_of_le'
      (show dp.headers.length ≤ (writeFileSfdisk env dp).1.length + 2 by rw [hw, List.length_append]; omega)
    obtain ⟨rc', dp', b', hloop, hh, htb, -⟩ := readFileLoop_headers_append env dp.headers k 1 Script.fresh
      (List.replicate 1 '\n' ++
        (pa :: t).flatMap fun pa => (partitionLine env (devnameOf dp.headers) dp pa).1)
      [] hok (by simpa using hnd) rfl
    obtain ⟨r₁, r₂, r₃⟩ := readFileLoop_plainLines env (devnameOf dp.headers) dp (pa :: t) 1 k rc' dp' b'
      hpa (by
        rw [hw, List.length_append] at hk
        simp only [List.length_append, List.length_replicate] at hk
        omega)
    simp only [fdiskScriptReadFile, Stream.ofText]
    rw [hk, hw, hloop]
    simp only [r₁, r₂, r₃, hh, htb]
    exact ⟨rfl, rfl, rfl⟩

/--
**header と、start と size を持つ partition の表は、書いて読み直すと戻る。**

header が `HeaderOk` で名前が重ならず、どの partition も `PlainPartition` なら、
`write_file_sfdisk` の出力を新しい script に読むと 0 が返り、header の列は元と同じで、
partition の `start=` から後ろの項目（start、size、bootable と、無い type、uuid、name、attrs）は
元の partition と順に同じになる。
-/
theorem write_file_sfdisk_roundtrip (env : Env) (dp : Script) (hnd : NoDupKeys dp.headers)
    (hok : ∀ fi ∈ dp.headers, HeaderOk env fi)
    (hpa : ∀ pa ∈ dp.table.getD [], PlainPartition env (devnameOf dp.headers) pa) :
    (fdiskScriptReadFile env Script.fresh (.ofText (writeFileSfdisk env dp).1)).1 = 0 ∧
      (fdiskScriptReadFile env Script.fresh (.ofText (writeFileSfdisk env dp).1)).2.headers =
        dp.headers ∧
      ((fdiskScriptReadFile env Script.fresh (.ofText (writeFileSfdisk env dp).1)).2.table.getD []).map
        Partition.written = (dp.table.getD []).map Partition.written :=
  readFile_writeFileSfdisk env dp hnd hok hpa

theorem write_file_sfdisk_roundtrip_sample :
    let dp : Script := { Script.fresh with
      headers := [⟨"unit".toList, "sectors".toList⟩, ⟨"device".toList, "/dev/sda".toList⟩]
      table := some [{ Partition.new with
          partno := some 0
          start := some 2048
          size := some 204800
          boot := true },
        { Partition.new with
          partno := some 1
          start := some 206848
          size := some 1000000 }] }
    (NoDupKeys dp.headers ∧ (∀ fi ∈ dp.headers, HeaderOk Env.bare fi) ∧
        ∀ pa ∈ dp.table.getD [], PlainPartition Env.bare (devnameOf dp.headers) pa) ∧
      (fdiskScriptReadFile Env.bare Script.fresh (.ofText (writeFileSfdisk Env.bare dp).1)).1 = 0 ∧
      (fdiskScriptReadFile Env.bare Script.fresh (.ofText (writeFileSfdisk Env.bare dp).1)).2.headers =
        dp.headers ∧
      ((fdiskScriptReadFile Env.bare Script.fresh
        (.ofText (writeFileSfdisk Env.bare dp).1)).2.table.getD []).map Partition.written =
        (dp.table.getD []).map Partition.written := by
  intro dp
  have hok : ∀ fi ∈ dp.headers, HeaderOk Env.bare fi := by
    intro fi hfi
    simp only [dp, List.mem_cons, List.mem_singleton, List.not_mem_nil, or_false] at hfi
    rcases hfi with rfl | rfl <;>
      exact ⟨by decide, by decide, by decide, by decide, by decide, by decide, by decide⟩
  have hnd : NoDupKeys dp.headers := by
    unfold NoDupKeys dp; decide
  have hpa : ∀ pa ∈ dp.table.getD [], PlainPartition Env.bare (devnameOf dp.headers) pa := by
    intro pa hpa
    simp only [dp, Option.getD_some, List.mem_cons, List.mem_singleton, List.not_mem_nil,
      or_false] at hpa
    rcases hpa with rfl | rfl <;>
      exact ⟨⟨by decide, by decide⟩, ⟨_, rfl, by decide, rfl⟩, ⟨_, rfl, by decide, rfl⟩, rfl, rfl, rfl, rfl,
        fun d => by rw [partitionLine_fst_of_attrs rfl d Script.fresh]; decide⟩
  exact ⟨⟨hnd, hok, hpa⟩, write_file_sfdisk_roundtrip Env.bare dp hnd hok hpa⟩

end Fdisk
