import SimpleInit.Fdisk.Token

/-!
# script の一行を読む

`fdisk_script_read_buffer` と、そこから呼ばれる三つの行の parser を写す。

* `parseLineHeader` — `<name>: <value>` の header 行
* `parseLineNameval` — `<device> : start=<n>, size=<n>, type=<t>, ...` の行
* `parseLineValcommas` — `<start>, <size>, <type>, <bootable>` の行

どの parser もバッファに NUL を書き込み、行の状態 `LineState`（バッファ、位置、作りかけの
partition、script）を進める。項目を読むループは位置が毎回真に進み、バッファの外は NUL なので、
バッファの長さ + 1 回で必ず止まる。その回数を fuel として与え、足りることを `namevalLoop_fuel`、
`valcommasLoop_fuel` で示す。

`fdisk_table_add_partition` は table の末尾に足して 0 を返し、`fdisk_script_get_table` と
`strdup` の確保は成功するものとする。

## 主な定理

* `namevalLoop_fuel`、`valcommasLoop_fuel` — 残りのバッファの長さより多い fuel なら、項目のループの
  結果は fuel によらず、0 を返すのは NUL に着いたときだけ（`namevalLoop_ends_at_nul`、`valcommasLoop_ends_at_nul`）
* `nameval_trailing_blank` — 既定値の `,` の後ろに空白が一つあるだけで、読める行が読めなくなる
-/

namespace Fdisk

/-- 一行を読んでいる途中の状態。 -/
structure LineState where
  buf : List Char
  pos : Nat
  part : Partition
  script : Script

/-- 行の partition を作る前の初期値：start、end、partno のどれも既定値に従う。 -/
def Partition.forLine : Partition :=
  { Partition.new with startFollowDefault := true, endFollowDefault := true,
                       partnoFollowDefault := true }

/-! ## start と size -/

/-- `skip_optional_sign` の符号を `FDISK_MOVE_*` にする。 -/
def moveOf : Option Char → MoveStart
  | some '-' => .down
  | some '+' => .up
  | _ => .none

/-- 符号を `FDISK_RESIZE_*` にする。 -/
def resizeOf : Option Char → Resize
  | some '-' => .reduce
  | some '+' => .enlarge
  | _ => .none

/-- `parse_start_value(dp, pa, &str)`。 -/
def parseStartValue (env : Env) (st : LineState) : Int × LineState :=
  match isDefaultValue st.buf st.pos with
  | some p => (0, { st with pos := p, part := { st.part with startFollowDefault := true } })
  | none =>
    match nextToken st.buf st.pos with
    | none => (-EINVAL, st)
    | some (tk, b, p) =>
      let st := { st with buf := b, pos := p }
      if cstr b tk = ['+'] then
        (0, { st with part := { st.part with startFollowDefault := true, movestart := .down } })
      else
        let (sign, tk) := skipOptionalSign b tk
        match env.parseSize (cstr b tk) with
        | .error rc => (rc, { st with part := { st.part with startFollowDefault := false } })
        | .ok (num, pow) =>
          if pow ≠ 0 ∧ env.sectorSize = 0 then (-EINVAL, st)
          else
            let num := if pow ≠ 0 then num / env.sectorSize else num
            (0, { st with part := { st.part.setStart num with
                    movestart := moveOf sign, startFollowDefault := false } })

/-- `parse_size_value(dp, pa, &str)`。 -/
def parseSizeValue (env : Env) (st : LineState) : Int × LineState :=
  match isDefaultValue st.buf st.pos with
  | some p => (0, { st with pos := p, part := { st.part with endFollowDefault := true } })
  | none =>
    match nextToken st.buf st.pos with
    | none => (-EINVAL, st)
    | some (tk, b, p) =>
      let st := { st with buf := b, pos := p }
      if cstr b tk = ['+'] then
        (0, { st with part := { st.part with endFollowDefault := true, resize := .enlarge } })
      else
        let (sign, tk) := skipOptionalSign b tk
        match env.parseSize (cstr b tk) with
        | .error rc => (rc, { st with part := { st.part with endFollowDefault := false } })
        | .ok (num, pow) =>
          if pow ≠ 0 ∧ env.sectorSize = 0 then (-EINVAL, st)
          else
            let pa := if pow ≠ 0 then st.part else { st.part with sizeExplicit := true }
            let num := if pow ≠ 0 then num / env.sectorSize else num
            (0, { st with part := { pa.setSize num with
                    resize := resizeOf sign, endFollowDefault := false } })

/-! ## 文字列の項目 -/

/-- `rc = next_string(&p, &field)` の形の項目。成功したら `set` で partition に入れる。 -/
def stringField (st : LineState) (set : Partition → Option (List Char) → Partition) :
    Int × LineState :=
  let (rc, str, b, p) := nextString st.buf st.pos
  (rc, { st with buf := b, pos := p, part := set st.part str })

/-- `type=` と `Id=`：文字列を `fdisk_label_advparse_parttype` で partition type にする。 -/
def typeField (env : Env) (st : LineState) : Int × LineState :=
  let st := { st with part := { st.part with type := none } }
  match nextString st.buf st.pos with
  | (0, some ty, b, p) =>
    let (lb, dp) := scriptGetLabel env st.script
    let t := env.advparseParttype lb ty
    ((if t.isNone then -EINVAL else 0),
      { st with buf := b, pos := p, script := dp, part := { st.part with type := t } })
  | (rc, _, b, p) => (rc, { st with buf := b, pos := p })

/-- `next_string` が値を返せば、`type=` は `script_get_label` の label でそれを読み、cache を埋める。 -/
theorem typeField_of_nextString (env : Env) {b : List Char} {p : Nat} (pa : Partition) (dp : Script)
    {ty b' : List Char} {p' : Nat} (h : nextString b p = (0, some ty, b', p')) :
    typeField env ⟨b, p, pa, dp⟩ =
      ((if (env.advparseParttype (scriptGetLabel env dp).1 ty).isNone then -EINVAL else 0),
        ⟨b', p', { pa with type := env.advparseParttype (scriptGetLabel env dp).1 ty }, (scriptGetLabel env dp).2⟩) := by
  simp only [typeField, h]

/-! ## `parse_line_nameval` -/

/-- `parse_line_nameval` のループの本体。`p = skip_blank(p)` から、項目を一つ読むまで。 -/
def namevalField (env : Env) (st : LineState) : Int × LineState :=
  let p := skipBlank st.buf st.pos
  let st := { st with pos := p }
  if strncasecmpEq st.buf p "start=".toList then parseStartValue env { st with pos := p + 6 }
  else if strncasecmpEq st.buf p "size=".toList then parseSizeValue env { st with pos := p + 5 }
  else if strncasecmpEq st.buf p "bootable".toList then
    match nextToken st.buf p with
    | some (tk, b, p') =>
      if strcasecmpEq (cstr b tk) "bootable".toList then
        (0, { st with buf := b, pos := p', part := { st.part with boot := true } })
      else (-EINVAL, { st with buf := b, pos := p' })
    | none => (-EINVAL, st)
  else if strncasecmpEq st.buf p "attrs=".toList then
    stringField { st with pos := p + 6 } fun pa s => { pa with attrs := s }
  else if strncasecmpEq st.buf p "uuid=".toList then
    stringField { st with pos := p + 5 } fun pa s => { pa with uuid := s }
  else if strncasecmpEq st.buf p "name=".toList then
    stringField { st with pos := p + 5 } fun pa s => { pa with name := s.map env.unhexmangle }
  else if strncasecmpEq st.buf p "type=".toList ∨ strncasecmpEq st.buf p "Id=".toList then
    typeField env { st with pos := p + if peek st.buf p = 'I' ∨ peek st.buf p = 'i' then 3 else 5 }
  else (-EINVAL, st)

/-- `while (rc == 0 && p && *p)` のループ。 -/
def namevalLoop (env : Env) : Nat → LineState → Int × LineState
  | 0, st => (0, st)
  | fuel + 1, st =>
    if peek st.buf st.pos = '\x00' then (0, st)
    else
      let r := namevalField env st
      if r.1 = 0 then namevalLoop env fuel r.2 else r

/-- 末尾の空白類を除いた長さ（`rtrim_whitespace` の戻り値）。 -/
def rtrimLength (s : List Char) : Nat := (s.reverse.dropWhile isSpace).length

/--
`partno_from_devname(s)`：末尾の空白を除いた名前の最後の数字の列を `strtol` で読み、1 を引く。
数字が無い、`LONG_MAX` を超える、`INT32_MAX` を超えるときは -1。
-/
def partnoFromDevname (s : List Char) : Int :=
  if s = [] then -1
  else
    let t := s.take (rtrimLength s)
    let digits := (t.reverse.takeWhile isDigit).reverse
    if digits = [] then -1
    else
      let num := decimalValue digits
      if num > 2 ^ 63 - 1 then -1
      else if num > 2 ^ 31 - 1 then -1
      else (num : Int) - 1

/--
`partno_from_devname` の値。名前を、末尾の空白類 `ws`、その手前の最長の数字の列 `ds`、残り `pre` に
分ける（`pre` の最後は数字でなく、`ds` が空なら空白類でもない）。値 `n` が 1 以上 `INT32_MAX` 以下なら
`n - 1`、そうでなければ（数字が無い、0、`INT32_MAX` を超える、`LONG_MAX` を超える）-1。
-/
theorem partnoFromDevname_eq (pre ds ws : List Char) (hws : ∀ c ∈ ws, isSpace c = true)
    (hds : ∀ c ∈ ds, isDigit c = true)
    (hpre : ∀ c ∈ pre.getLast?, isDigit c = false ∧ (ds = [] → isSpace c = false)) :
    partnoFromDevname (pre ++ ds ++ ws) =
      if 1 ≤ decimalValue ds ∧ decimalValue ds ≤ 2 ^ 31 - 1 then (decimalValue ds : Int) - 1 else -1 := by
  -- 末尾の空白類を除くと `pre ++ ds` が残る
  have htrim : ((pre ++ ds).reverse.dropWhile isSpace) = (pre ++ ds).reverse := by
    rcases List.eq_nil_or_concat ds with rfl | ⟨ds', d, rfl⟩
    · rcases List.eq_nil_or_concat pre with rfl | ⟨pre', c, rfl⟩
      · rfl
      · have := (hpre c (by simp)).2 rfl
        simp [List.dropWhile_cons_of_neg, this]
    · have := isSpace_of_isDigit (hds d (by simp))
      simp [List.dropWhile_cons_of_neg, this]
  have hlen : rtrimLength (pre ++ ds ++ ws) = (pre ++ ds).length := by
    rw [rtrimLength, List.reverse_append,
      List.dropWhile_append_of_pos (fun c hc => hws c (List.mem_reverse.mp hc)), htrim, List.length_reverse]
  -- 最長の数字の列は `ds`
  have hrun : ((pre ++ ds).reverse.takeWhile isDigit).reverse = ds := by
    rw [List.reverse_append, List.takeWhile_append_of_pos (fun c hc => hds c (List.mem_reverse.mp hc))]
    rcases List.eq_nil_or_concat pre with rfl | ⟨pre', c, rfl⟩
    · simp
    · have := (hpre c (by simp)).1
      simp [List.takeWhile_cons_of_neg, this]
  by_cases hs : pre ++ ds ++ ws = []
  · simp only [List.append_eq_nil] at hs
    obtain ⟨⟨rfl, rfl⟩, rfl⟩ := hs
    simp [partnoFromDevname, decimalValue]
  rw [partnoFromDevname, if_neg hs]
  simp only [hlen, List.take_left', hrun]
  rcases eq_or_ne ds [] with rfl | hne
  · simp [decimalValue]
  rw [if_neg hne]
  generalize decimalValue ds = n
  split_ifs <;> omega

/-- `fdisk_table_add_partition(dp->table, pa)`：末尾に足して 0。 -/
def addPartition (dp : Script) (pa : Partition) : Script :=
  { dp with table := some (dp.table.getD [] ++ [pa]) }

/-- `parse_line_nameval(dp, s)`。戻り値、script、書き換えたバッファ。 -/
def parseLineNameval (env : Env) (dp : Script) (b : List Char) (s : Nat) :
    Int × Script × List Char :=
  let st : LineState := ⟨b, s, Partition.forLine, dp⟩
  let st := match strchrAt b s ':' with
    | some q =>
      if (strchrAt b s '=').all (q < ·) then
        let b₁ := poke b q '\x00'
        let dev := cstr b₁ s
        let b₂ := if dev = [] then b₁ else poke b₁ (s + rtrimLength dev) '\x00'
        let pno := partnoFromDevname dev
        let pa := if 0 ≤ pno then { st.part with partnoFollowDefault := false, partno := some pno.toNat }
          else st.part
        { st with buf := b₂, pos := q + 1, part := pa }
      else st
    | none => st
  let r := namevalLoop env (b.length + 1) st
  if r.1 = 0 then (0, addPartition r.2.script r.2.part, r.2.buf) else (r.1, r.2.script, r.2.buf)

/-! ## `parse_line_valcommas` -/

/-- `switch (item)` の一つの項目。 -/
def valcommasItem (env : Env) (item : Nat) (st : LineState) : Int × LineState :=
  match item with
  | 0 => parseStartValue env st
  | 1 => parseSizeValue env st
  | 2 =>
    let st := { st with part := { st.part with type := none } }
    if peek st.buf st.pos = ',' ∨ peek st.buf st.pos = ';' then (0, st)
    else match isDefaultValue st.buf st.pos with
      | some p => (0, { st with pos := p })
      | none => typeField env st
  | 3 =>
    if peek st.buf st.pos = ',' ∨ peek st.buf st.pos = ';' then (0, st)
    else match nextToken st.buf st.pos with
      | some (tk, b, p) =>
        let st := { st with buf := b, pos := p }
        if cstr b tk = ['*'] ∨ cstr b tk = ['+'] then (0, { st with part := { st.part with boot := true } })
        else if cstr b tk = ['-'] then (0, { st with part := { st.part with boot := false } })
        else (-EINVAL, st)
      | none => (-EINVAL, st)
  | _ => (0, st)

/-- `parse_line_valcommas` のループ。項目を読んで位置が動かなければ `p++` する。 -/
def valcommasLoop (env : Env) : Nat → Nat → LineState → Int × LineState
  | 0, _, st => (0, st)
  | fuel + 1, item, st =>
    if peek st.buf st.pos = '\x00' then (0, st)
    else
      let begin := skipBlank st.buf st.pos
      let r := valcommasItem env item { st with pos := begin }
      let st' := if r.2.pos = begin then { r.2 with pos := begin + 1 } else r.2
      if r.1 = 0 then valcommasLoop env fuel (item + 1) st' else (r.1, st')

/-- `parse_line_valcommas(dp, s)`。戻り値、script、バッファ、ループを出たときの `p`。 -/
def parseLineValcommas (env : Env) (dp : Script) (b : List Char) (s : Nat) :
    Int × Script × List Char × Nat :=
  let r := valcommasLoop env (b.length + 1) 0 ⟨b, s, Partition.forLine, dp⟩
  if r.1 = 0 then (0, addPartition r.2.script r.2.part, r.2.buf, r.2.pos)
  else (r.1, r.2.script, r.2.buf, r.2.pos)

/-! ## 項目のループの fuel

二つのループは、続けるたびに位置を真に進め、バッファの長さを変えない（`namevalField_progress`、
`valcommasStep_progress`）。バッファの外は NUL なので、位置が長さに届けばループは止まる。だから
残りの長さより多い fuel なら結果は fuel によらず（`namevalLoop_fuel`、`valcommasLoop_fuel`）、
0 を返すのは NUL に着いたときだけ（`namevalLoop_ends_at_nul`、`valcommasLoop_ends_at_nul`）。呼び出し側の
`b.length + 1` は、ループの見るバッファが `b` と同じ長さなのでいつも足りる。
-/

/-- 行の状態が進んだ：バッファの長さは同じで、位置は戻らない。 -/
structure LineState.Advances (st st' : LineState) : Prop where
  length : st'.buf.length = st.buf.length
  pos : st.pos ≤ st'.pos

theorem LineState.Advances.refl (st : LineState) : st.Advances st := ⟨rfl, le_rfl⟩

/-- `next_token` の返したバッファと位置へ進む。 -/
theorem LineState.Advances.of_nextToken {st st' : LineState} {tk : Nat}
    (h : nextToken st.buf st.pos = some (tk, st'.buf, st'.pos)) : st.Advances st' :=
  ⟨(nextToken_progress h).2, (nextToken_progress h).1.le⟩

/-- `*p` より先の位置から読み始めて進んだなら、`*p` からは真に進んでいる。 -/
theorem LineState.Advances.strict {st r : LineState} {q : Nat} (hq : st.pos < q)
    (h : ({ st with pos := q } : LineState).Advances r) : r.buf.length = st.buf.length ∧ st.pos < r.pos :=
  ⟨h.length, Nat.lt_of_lt_of_le hq h.pos⟩

theorem parseStartValue_advances (env : Env) (st : LineState) : st.Advances (parseStartValue env st).2 := by
  unfold parseStartValue
  split
  · next h => exact ⟨rfl, isDefaultValue_ge h⟩
  split
  · exact .refl st
  next h =>
  dsimp only
  repeat' split
  all_goals exact .of_nextToken h

theorem parseSizeValue_advances (env : Env) (st : LineState) : st.Advances (parseSizeValue env st).2 := by
  unfold parseSizeValue
  split
  · next h => exact ⟨rfl, isDefaultValue_ge h⟩
  split
  · exact .refl st
  next h =>
  dsimp only
  repeat' split
  all_goals exact .of_nextToken h

theorem stringField_advances (st : LineState) (set : Partition → Option (List Char) → Partition) :
    st.Advances (stringField st set).2 := by
  have h := nextString_progress st.buf st.pos
  unfold stringField
  rcases hn : nextString st.buf st.pos with ⟨rc, str, b, p⟩
  rw [hn] at h
  exact ⟨h.2, h.1⟩

theorem typeField_advances (env : Env) (st : LineState) : st.Advances (typeField env st).2 := by
  have h := nextString_progress st.buf st.pos
  unfold typeField
  dsimp only
  split <;> (rename_i heq; rw [heq] at h; exact ⟨h.2, h.1⟩)

/-- `parse_line_nameval` の項目を一つ読めたら、位置は真に進み、バッファの長さは変わらない。 -/
theorem namevalField_progress (env : Env) (st : LineState) (h : (namevalField env st).1 = 0) :
    (namevalField env st).2.buf.length = st.buf.length ∧ st.pos < (namevalField env st).2.pos := by
  have hp := skipBlank_ge st.buf st.pos
  revert h
  unfold namevalField
  dsimp only
  split
  · exact fun _ => LineState.Advances.strict (by omega) (parseStartValue_advances env _)
  split
  · exact fun _ => LineState.Advances.strict (by omega) (parseSizeValue_advances env _)
  split
  · split
    · next heq =>
      split
      · exact fun _ => ⟨(nextToken_progress heq).2, Nat.lt_of_le_of_lt hp (nextToken_progress heq).1⟩
      · exact fun h => by simp [EINVAL] at h
    · exact fun h => by simp [EINVAL] at h
  iterate 3 (split; · exact fun _ => LineState.Advances.strict (by omega) (stringField_advances _ _))
  split
  · exact fun _ => LineState.Advances.strict (by split <;> omega) (typeField_advances env _)
  · exact fun h => by simp [EINVAL] at h

/-- 残りのバッファの長さより多い fuel なら、`parse_line_nameval` のループの結果は fuel によらない。 -/
theorem namevalLoop_fuel (env : Env) :
    ∀ (fuel fuel' : Nat) (st : LineState), st.buf.length - st.pos < fuel → st.buf.length - st.pos < fuel' →
      namevalLoop env fuel st = namevalLoop env fuel' st
  | 0, _, _, h, _ => absurd h (Nat.not_lt_zero _)
  | _ + 1, 0, _, _, h' => absurd h' (Nat.not_lt_zero _)
  | fuel + 1, fuel' + 1, st, h, h' => by
    simp only [namevalLoop]
    split
    · rfl
    · next hn =>
      split
      · next hr =>
        have hl := lt_length_of_peek_ne hn
        obtain ⟨hlen, hlt⟩ := namevalField_progress env st hr
        exact namevalLoop_fuel env fuel fuel' _ (by omega) (by omega)
      · rfl

/-- fuel が足りていれば、`parse_line_nameval` のループが 0 を返すのは NUL に着いたときだけ。 -/
theorem namevalLoop_ends_at_nul (env : Env) :
    ∀ (fuel : Nat) (st : LineState), st.buf.length - st.pos < fuel → (namevalLoop env fuel st).1 = 0 →
      peek (namevalLoop env fuel st).2.buf (namevalLoop env fuel st).2.pos = '\x00'
  | 0, _, h => absurd h (Nat.not_lt_zero _)
  | fuel + 1, st, h => by
    simp only [namevalLoop]
    split
    · exact fun _ => ‹_›
    · next hn =>
      split
      · next hr =>
        have hl := lt_length_of_peek_ne hn
        obtain ⟨hlen, hlt⟩ := namevalField_progress env st hr
        exact namevalLoop_ends_at_nul env fuel _ (by omega)
      · exact fun h => absurd h ‹_›

theorem valcommasItem_advances (env : Env) (item : Nat) (st : LineState) :
    st.Advances (valcommasItem env item st).2 := by
  unfold valcommasItem
  split
  · exact parseStartValue_advances env st
  · exact parseSizeValue_advances env st
  · dsimp only
    split
    · exact ⟨rfl, le_rfl⟩
    split
    · next h => exact ⟨rfl, isDefaultValue_ge h⟩
    · have h := typeField_advances env { st with part := { st.part with type := none } }
      exact ⟨h.length, h.pos⟩
  · split
    · exact .refl st
    split
    · next h =>
      dsimp only
      repeat' split
      all_goals exact .of_nextToken h
    · exact .refl st
  · exact .refl st

/-- `parse_line_valcommas` のループの一周は、項目を読んでも読まなくても位置を真に進める。 -/
theorem valcommasStep_progress (env : Env) (item : Nat) (st : LineState) :
    let begin := skipBlank st.buf st.pos
    let r := valcommasItem env item { st with pos := begin }
    let st' := if r.2.pos = begin then { r.2 with pos := begin + 1 } else r.2
    st'.buf.length = st.buf.length ∧ st.pos < st'.pos := by
  intro begin r st'
  have hb := skipBlank_ge st.buf st.pos
  have ha := valcommasItem_advances env item { st with pos := begin }
  have hlen : r.2.buf.length = st.buf.length := ha.length
  have hpos : begin ≤ r.2.pos := ha.pos
  simp only [st']
  split <;> refine ⟨hlen, ?_⟩ <;> dsimp only <;> omega

/-- 残りのバッファの長さより多い fuel なら、`parse_line_valcommas` のループの結果は fuel によらない。 -/
theorem valcommasLoop_fuel (env : Env) :
    ∀ (fuel fuel' item : Nat) (st : LineState), st.buf.length - st.pos < fuel →
      st.buf.length - st.pos < fuel' → valcommasLoop env fuel item st = valcommasLoop env fuel' item st
  | 0, _, _, _, h, _ => absurd h (Nat.not_lt_zero _)
  | _ + 1, 0, _, _, _, h' => absurd h' (Nat.not_lt_zero _)
  | fuel + 1, fuel' + 1, item, st, h, h' => by
    simp only [valcommasLoop]
    split
    · rfl
    · next hn =>
      have hl := lt_length_of_peek_ne hn
      obtain ⟨hlen, hlt⟩ := valcommasStep_progress env item st
      dsimp only at hlen hlt ⊢
      split
      · exact valcommasLoop_fuel env fuel fuel' _ _ (by omega) (by omega)
      · rfl

/-- fuel が足りていれば、`parse_line_valcommas` のループが 0 を返すのは NUL に着いたときだけ。 -/
theorem valcommasLoop_ends_at_nul (env : Env) :
    ∀ (fuel item : Nat) (st : LineState), st.buf.length - st.pos < fuel →
      (valcommasLoop env fuel item st).1 = 0 →
      peek (valcommasLoop env fuel item st).2.buf (valcommasLoop env fuel item st).2.pos = '\x00'
  | 0, _, _, h => absurd h (Nat.not_lt_zero _)
  | fuel + 1, item, st, h => by
    simp only [valcommasLoop]
    split
    · exact fun _ => ‹_›
    · next hn =>
      have hl := lt_length_of_peek_ne hn
      obtain ⟨hlen, hlt⟩ := valcommasStep_progress env item st
      dsimp only at hlen hlt ⊢
      split
      · exact valcommasLoop_ends_at_nul env fuel _ _ (by omega)
      · exact fun h => absurd h ‹_›

/-! ## header 行 -/

/-- `parse_line_header` が受ける header の名前。 -/
def supportedHeaders : List (List Char) :=
  ["label", "unit", "label-id", "device", "grain", "first-lba", "last-lba", "table-length",
    "sector-size"].map String.toList

/-- `is_header_line(s)`。 -/
def isHeaderLine (b : List Char) (s : Nat) : Bool :=
  match strchrAt b s ':' with
  | none => false
  | some q => q ≠ s && peek b (q + 1) != '\x00' && (strchrAt b s '=').isNone

/-- `b` の `p` から先を `l` で上書きする（`memmove` の書き込み）。 -/
def writeAt (b : List Char) (p : Nat) (l : List Char) : List Char :=
  l.enum.foldl (fun b (i, c) => poke b (p + i) c) b

/-- `ltrim_whitespace` と `rtrim_whitespace` をバッファの `p` の C 文字列に掛ける。 -/
def trimInPlace (b : List Char) (p : Nat) : List Char :=
  let t := cstr b p
  let k := (t.takeWhile isSpace).length
  let b := if 0 < k then writeAt b p (t.drop k ++ ['\x00']) else b
  let t := cstr b p
  poke b (p + rtrimLength t) '\x00'

/-- `parse_line_header(dp, s)`。戻り値、script、バッファ。 -/
def parseLineHeader (env : Env) (dp : Script) (b : List Char) (s : Nat) :
    Int × Script × List Char :=
  if peek b s = '\x00' then (-EINVAL, dp, b) else
  match strchrAt b s ':' with
  | none => (-EINVAL, dp, b)
  | some q =>
    let b := poke b q '\x00'
    let name := trimWhitespace (cstr b s)
    let value := trimWhitespace (cstr b (q + 1))
    let b := trimInPlace (trimInPlace b s) (q + 1)
    if name = [] ∨ value = [] then (-EINVAL, dp, b)
    else if name ∉ supportedHeaders then (-ENOTSUP, dp, b)
    else if name = "label".toList ∧ (env.getLabel (some value)).isNone then (-EINVAL, dp, b)
    else if name = "unit".toList ∧ value ≠ "sectors".toList then (-EINVAL, dp, b)
    else
      let dp := if name = "label".toList then { dp with forceLabel := true } else dp
      let r := fdiskScriptSetHeader [] dp (some name) (some value)
      (r.1, r.2, b)

/-! ## `fdisk_script_read_buffer` -/

/-- `fdisk_script_read_buffer(dp, s)`。戻り値、script、書き換えたバッファ。 -/
def fdiskScriptReadBuffer (env : Env) (dp : Script) (b : List Char) (s : Nat) :
    Int × Script × List Char :=
  let s := skipBlank b s
  if peek b s = '\x00' then (0, dp, b)
  else
    let dp := { dp with table := some (dp.table.getD []) }
    if dp.table.getD [] = [] ∧ isHeaderLine b s then parseLineHeader env dp b s
    else if (strchrAt b s '=').isSome then parseLineNameval env dp b s
    else
      let r := parseLineValcommas env dp b s
      (r.1, r.2.1, r.2.2.1)

/-! ## 数字の値の項目

`start=`、`size=` の値が符号の無い数字の列で、`parse_size` がそれを接尾辞なしの数に読むときの、
項目一つとループ一周の読み方。
-/

/-- 符号の無い数字のトークンを `start=` の値として読む。 -/
theorem parseStartValue_digits (env : Env) (st : LineState) {tk p' n : Nat} {b' s r : List Char}
    (hdef : isDefaultValue st.buf st.pos = none) (htok : nextToken st.buf st.pos = some (tk, b', p'))
    (hdrop : b'.drop tk = s ++ '\x00' :: r) (hs : s ≠ []) (hds : ∀ c ∈ s, isDigit c = true)
    (hparse : env.parseSize s = .ok (n, 0)) :
    parseStartValue env st = (0, { st with
      buf := b'
      pos := p'
      part := { st.part.setStart n with movestart := .none, startFollowDefault := false } }) := by
  obtain ⟨d, ds, rfl⟩ := List.exists_cons_of_ne_nil hs
  have hd := hds d (List.mem_cons_self _ _)
  have hplus : d :: ds ≠ ['+'] := fun e => (isDigit_spec hd).2.2.1 (List.cons.inj e).1
  simp only [parseStartValue, hdef, htok, cstr_of_drop hdrop (nul_not_mem_digits hds), if_neg hplus,
    skipOptionalSign_digit hdrop hd, hparse]
  simp [moveOf]

/-- 符号の無い数字のトークンを `size=` の値として読む。接尾辞が無いので sector 数として明示される。 -/
theorem parseSizeValue_digits (env : Env) (st : LineState) {tk p' n : Nat} {b' s r : List Char}
    (hdef : isDefaultValue st.buf st.pos = none) (htok : nextToken st.buf st.pos = some (tk, b', p'))
    (hdrop : b'.drop tk = s ++ '\x00' :: r) (hs : s ≠ []) (hds : ∀ c ∈ s, isDigit c = true)
    (hparse : env.parseSize s = .ok (n, 0)) :
    parseSizeValue env st = (0, { st with
      buf := b'
      pos := p'
      part := { ({ st.part with sizeExplicit := true }).setSize n with
        resize := .none, endFollowDefault := false } }) := by
  obtain ⟨d, ds, rfl⟩ := List.exists_cons_of_ne_nil hs
  have hd := hds d (List.mem_cons_self _ _)
  have hplus : d :: ds ≠ ['+'] := fun e => (isDigit_spec hd).2.2.1 (List.cons.inj e).1
  simp only [parseSizeValue, hdef, htok, cstr_of_drop hdrop (nul_not_mem_digits hds), if_neg hplus,
    skipOptionalSign_digit hdrop hd, hparse]
  simp [resizeOf]

/-- `start=` の項目を読む。値のトークンの読み方は `hdef`、`htok`、`hdrop` が与える。 -/
theorem namevalField_start (env : Env) (st : LineState) {bl R r b' s : List Char} {n tk p' : Nat}
    (h : st.buf.drop st.pos = bl ++ "start=".toList ++ R) (hbl : ∀ x ∈ bl, isBlank x = true)
    (hdef : isDefaultValue st.buf (st.pos + bl.length + 6) = none)
    (htok : nextToken st.buf (st.pos + bl.length + 6) = some (tk, b', p'))
    (hdrop : b'.drop tk = s ++ '\x00' :: r) (hs : s ≠ []) (hds : ∀ c ∈ s, isDigit c = true)
    (hparse : env.parseSize s = .ok (n, 0)) :
    namevalField env st = (0, { st with
      buf := b'
      pos := p'
      part := { st.part.setStart n with movestart := .none, startFollowDefault := false } }) := by
  have hk : st.buf.drop (st.pos + bl.length) = "start=".toList ++ R :=
    drop_add_of_drop (by rw [h]; simp)
  have hsk : skipBlank st.buf st.pos = st.pos + bl.length :=
    skipBlank_of_drop (show st.buf.drop st.pos = bl ++ 's' :: ("tart=".toList ++ R) by rw [h]; simp) hbl
      (by decide)
  have hf : namevalField env st = parseStartValue env { st with pos := st.pos + bl.length + 6 } := by
    simp only [namevalField, hsk, strncasecmpEq_of_drop hk (by decide), if_true]
  rw [hf, parseStartValue_digits env _ hdef htok hdrop hs hds hparse]

/-- `size=` の項目を読む。`start=` とは二文字目で分かれる。 -/
theorem namevalField_size (env : Env) (st : LineState) {bl R r b' s : List Char} {m tk p' : Nat}
    (h : st.buf.drop st.pos = bl ++ "size=".toList ++ R) (hbl : ∀ x ∈ bl, isBlank x = true)
    (hdef : isDefaultValue st.buf (st.pos + bl.length + 5) = none)
    (htok : nextToken st.buf (st.pos + bl.length + 5) = some (tk, b', p'))
    (hdrop : b'.drop tk = s ++ '\x00' :: r) (hs : s ≠ []) (hds : ∀ c ∈ s, isDigit c = true)
    (hparse : env.parseSize s = .ok (m, 0)) :
    namevalField env st = (0, { st with
      buf := b'
      pos := p'
      part := { ({ st.part with sizeExplicit := true }).setSize m with
        resize := .none, endFollowDefault := false } }) := by
  have hk : st.buf.drop (st.pos + bl.length) = "size=".toList ++ R :=
    drop_add_of_drop (by rw [h]; simp)
  have hsk : skipBlank st.buf st.pos = st.pos + bl.length :=
    skipBlank_of_drop (show st.buf.drop st.pos = bl ++ 's' :: ("ize=".toList ++ R) by rw [h]; simp) hbl
      (by decide)
  have hst : strncasecmpEq st.buf (st.pos + bl.length) "start=".toList = false :=
    strncasecmpEq_of_ne (show _ = "si".toList ++ ("ze=".toList ++ R) by rw [hk]; rfl) (by decide)
      (by decide) (by decide)
  have hf : namevalField env st = parseSizeValue env { st with pos := st.pos + bl.length + 5 } := by
    simp only [namevalField, hsk, hst, strncasecmpEq_of_drop hk (by decide), if_true, if_false,
      Bool.false_eq_true]
  rw [hf, parseSizeValue_digits env _ hdef htok hdrop hs hds hparse]

/-- `bootable` の項目を読む。行はそこで終わる。 -/
theorem namevalField_bootable (env : Env) (st : LineState) {bl R : List Char}
    (h : st.buf.drop st.pos = bl ++ "bootable".toList ++ '\x00' :: R)
    (hbl : ∀ x ∈ bl, isBlank x = true) :
    ∃ st', namevalField env st = (0, st') ∧ st'.buf.drop st'.pos = '\x00' :: R ∧
      st'.script = st.script ∧ st'.part = { st.part with boot := true } := by
  have hk : st.buf.drop (st.pos + bl.length) = "bootable".toList ++ '\x00' :: R :=
    drop_add_of_drop (by rw [h]; simp)
  have hsk : skipBlank st.buf st.pos = st.pos + bl.length :=
    skipBlank_of_drop (show st.buf.drop st.pos = bl ++ 'b' :: ("ootable".toList ++ '\x00' :: R) by
      rw [h]; simp) hbl (by decide)
  have hb : st.buf.drop (st.pos + bl.length) = "b".toList ++ ("ootable".toList ++ '\x00' :: R) := by
    rw [hk]; rfl
  have hst : strncasecmpEq st.buf (st.pos + bl.length) "start=".toList = false :=
    strncasecmpEq_of_ne hb (by decide) (by decide) (by decide)
  have hsz : strncasecmpEq st.buf (st.pos + bl.length) "size=".toList = false :=
    strncasecmpEq_of_ne hb (by decide) (by decide) (by decide)
  have htok := nextToken_nul (show st.buf.drop (st.pos + bl.length) =
    [] ++ 'b' :: ("ootable".toList ++ '\x00' :: R) by rw [hk]; rfl) (by simp) (by decide) (by decide)
  have hc : cstr st.buf (st.pos + bl.length) = "bootable".toList := cstr_of_drop hk (by decide)
  simp only [namevalField, hsk, hst, hsz, strncasecmpEq_of_drop hk (by decide), htok, hc,
    if_true, if_false, Bool.false_eq_true, List.length_nil, Nat.add_zero]
  have hend := drop_add_of_drop hk
  exact ⟨_, rfl, hend, rfl, rfl⟩

theorem namevalLoop_field {env : Env} {st st' : LineState} (fuel : Nat)
    (hp : peek st.buf st.pos ≠ '\x00') (h : namevalField env st = (0, st')) :
    namevalLoop env (fuel + 1) st = namevalLoop env fuel st' := by
  simp [namevalLoop, hp, h]

theorem namevalLoop_nul {env : Env} {st : LineState} (fuel : Nat) (hp : peek st.buf st.pos = '\x00') :
    namevalLoop env (fuel + 1) st = (0, st) := by
  simp [namevalLoop, hp]

/-! ## partition の番号

項目はどれも partition の番号に触らない。番号は `:` の手前の名前から `partno_from_devname` だけが決める。
-/

theorem parseStartValue_partno (env : Env) (st : LineState) :
    (parseStartValue env st).2.part.partno = st.part.partno := by
  unfold parseStartValue
  repeat' split
  all_goals first | rfl | exact Partition.setStart_partno _ _

theorem parseSizeValue_partno (env : Env) (st : LineState) :
    (parseSizeValue env st).2.part.partno = st.part.partno := by
  unfold parseSizeValue
  repeat' split
  all_goals first | rfl | exact Partition.setSize_partno _ _

theorem typeField_partno (env : Env) (st : LineState) :
    (typeField env st).2.part.partno = st.part.partno := by
  unfold typeField
  dsimp only
  split <;> rfl

theorem stringField_partno (st : LineState) {set : Partition → Option (List Char) → Partition}
    (hset : ∀ pa s, (set pa s).partno = pa.partno) : (stringField st set).2.part.partno = st.part.partno := by
  unfold stringField
  split
  exact hset _ _

theorem ite_partno {c : Prop} [Decidable c] {x y : Int × LineState} {n : Option Nat}
    (hx : x.2.part.partno = n) (hy : y.2.part.partno = n) : (if c then x else y).2.part.partno = n := by
  split
  · exact hx
  · exact hy

theorem namevalField_partno (env : Env) (st : LineState) :
    (namevalField env st).2.part.partno = st.part.partno := by
  unfold namevalField
  dsimp only
  refine ite_partno (parseStartValue_partno env _) <| ite_partno (parseSizeValue_partno env _) <|
    ite_partno ?_ <| ite_partno (stringField_partno _ fun _ _ => rfl) <|
    ite_partno (stringField_partno _ fun _ _ => rfl) <| ite_partno (stringField_partno _ fun _ _ => rfl) <|
    ite_partno (typeField_partno env _) rfl
  split
  · split <;> rfl
  · rfl

theorem namevalLoop_partno (env : Env) :
    ∀ (fuel : Nat) (st : LineState), (namevalLoop env fuel st).2.part.partno = st.part.partno
  | 0, _ => rfl
  | fuel + 1, st => by
    unfold namevalLoop
    split
    · rfl
    · dsimp only
      split
      · rw [namevalLoop_partno env fuel, namevalField_partno]
      · exact namevalField_partno env st

/-- `N :` で始まる行を `parse_line_nameval` で読むと、足す partition の番号は `partno_from_devname("N ")` が決める。 -/
theorem parseLineNameval_partno (env : Env) (dp : Script) {hd : List Char}
    (hh : ∀ c ∈ hd, c ≠ ':' ∧ c ≠ '=' ∧ c ≠ '\x00') (R : List Char)
    (h : (parseLineNameval env dp (hd ++ " :".toList ++ R) 0).1 = 0) :
    ((parseLineNameval env dp (hd ++ " :".toList ++ R) 0).2.1.table.getD []).getLast?.map Partition.partno =
      some (if 0 ≤ partnoFromDevname (hd ++ [' ']) then some (partnoFromDevname (hd ++ [' '])).toNat
        else none) := by
  have hsp : '\x00' ∉ hd ++ [' '] := by simpa using fun h' => (hh _ h').2.2 rfl
  have hb : hd ++ " :".toList ++ R = (hd ++ [' ']) ++ ':' :: R := by simp
  have hcolon : strchrAt (hd ++ " :".toList ++ R) 0 ':' = some (hd.length + 1) := by
    rw [hb, strchrAt_append_cons hsp (by simpa using fun h' => (hh _ h').1 rfl) (by decide)]
    simp
  have heq : (strchrAt (hd ++ " :".toList ++ R) 0 '=').all (hd.length + 1 < ·) = true := by
    have := strchrAt_append_ge (show '\x00' ∉ hd ++ " :".toList by simpa using fun h' => (hh _ h').2.2 rfl)
      (show '=' ∉ hd ++ " :".toList by simpa using fun h' => (hh _ h').2.1 rfl) R
    revert this
    cases strchrAt (hd ++ " :".toList ++ R) 0 '=' <;> simp; omega
  have hdev : cstr (poke (hd ++ " :".toList ++ R) (hd.length + 1) '\x00') 0 = hd ++ [' '] := by
    rw [hb, show hd.length + 1 = (hd ++ [' ']).length by simp, poke_append_length,
      cstr_nul hsp _ (Nat.zero_le _), List.drop_zero]
  simp only [parseLineNameval, hcolon, heq, if_true, hdev, List.append_eq_nil, List.cons_ne_nil, and_false,
    if_false] at h ⊢
  generalize hpa : (if 0 ≤ partnoFromDevname (hd ++ [' ']) then _ else Partition.forLine) = pa at h ⊢
  split
  · simp only [addPartition, Option.getD_some, List.getLast?_concat, Option.map_some', namevalLoop_partno,
      ← hpa]
    split <;> rfl
  · rename_i hr
    rw [if_neg hr] at h
    exact absurd h hr

/-! ## 行の終わりで起きること -/

/--
**既定値の `,` の後ろの空白で `parse_line_nameval` は失敗する。**

`start=,` は `is_default_value` が `,` を読んで行末に来るので成功する。`start=, ` では
`,` の後ろの空白を `is_default_value` が読み飛ばさず、ループは空白を見て続き、
`skip_blank` の後の空の項目がどの名前にも合わずに -EINVAL になる。
-/
theorem nameval_trailing_blank :
    (fdiskScriptReadBuffer Env.bare Script.fresh ("start=,".toList ++ ['\x00']) 0).1 = 0 ∧
      (fdiskScriptReadBuffer Env.bare Script.fresh ("start=,".toList ++ ['\x00']) 0).2.1.table =
        some [Partition.forLine] ∧
      (fdiskScriptReadBuffer Env.bare Script.fresh ("start=, ".toList ++ ['\x00']) 0).1 = -EINVAL := by
  decide

end Fdisk
