import SimpleInit.Fdisk.ReadScript

/-!
# 読むと table は伸びるだけ

`fdisk_script_read_file` は script を空にしない。`fdisk_script_read_buffer` は script に table が
無ければ空の table を作り（`fdisk_script_get_table`）、partition の行はその末尾に partition を
足すだけなので、読む前の partition は table の前に残る。また header の行として読むのは
table が空のときだけなので、table に一つでも partition があれば、その後の行はどれも header を
変えない。`fdisk_script_set_table` の説明にある「read の関数は古い partition を table から除く」は
`fdisk_script_read_context` には当てはまるが（`fdisk_reset_script` を呼ぶ）、`read_file` には
当てはまらない。

## 鍵になる並び

partition の行の parser は、script の table には `add_partition` でしか触らない
（`namevalLoop_table`、`valcommasLoop_table`）。header の行の `fdisk_script_set_header` は table に
触らない（`setHeader_table`）。読む一歩ごとのこの事実を `TableStep` にまとめ、`read_line` と
`read_file` のループに積み上げる。

## 主な定理

* `readFileLoop_tableStep` — `read_file` のループの前後で、前の table は後の table の接頭辞で、
  前の table が空でなければ header は変わらない
* `read_file_keeps_partitions` — `fdisk_script_read_file` についての同じこと
-/

namespace Fdisk

/-! ## partition の行の parser -/

@[simp] theorem scriptGetLabel_table (env : Env) (dp : Script) :
    (scriptGetLabel env dp).2.table = dp.table := by
  unfold scriptGetLabel; split <;> rfl

theorem table_prefix_of_eq {dp dp' : Script} (h : dp'.table = dp.table) :
    dp.table.getD [] <+: dp'.table.getD [] :=
  h ▸ List.prefix_refl _

theorem table_prefix_addPartition (dp : Script) (pa : Partition) :
    dp.table.getD [] <+: (addPartition dp pa).table.getD [] :=
  ⟨[pa], rfl⟩

theorem typeField_table (env : Env) (st : LineState) :
    (typeField env st).2.script.table = st.script.table := by
  unfold typeField
  dsimp only
  split
  · exact scriptGetLabel_table env _
  · rfl

/-- `if` のどちらの枝も table に触らなければ、`if` も触らない。 -/
theorem table_ite {c : Prop} [Decidable c] {x y : Int × LineState} {t : Option (List Partition)}
    (hx : x.2.script.table = t) (hy : y.2.script.table = t) : (if c then x else y).2.script.table = t := by
  split <;> assumption

theorem namevalField_table (env : Env) (st : LineState) :
    (namevalField env st).2.script.table = st.script.table := by
  unfold namevalField stringField
  dsimp only
  refine table_ite (congrArg Script.table (parseStartValue_script env _)) <|
    table_ite (congrArg Script.table (parseSizeValue_script env _)) <| table_ite ?_ <|
    table_ite rfl <| table_ite rfl <| table_ite rfl <| table_ite (typeField_table env _) rfl
  split
  · split <;> rfl
  · rfl

theorem namevalLoop_table (env : Env) : ∀ (fuel : Nat) (st : LineState),
    (namevalLoop env fuel st).2.script.table = st.script.table
  | 0, _ => rfl
  | fuel + 1, st => by
    unfold namevalLoop
    split
    · rfl
    · dsimp only
      split
      · exact (namevalLoop_table env fuel _).trans (namevalField_table env st)
      · exact namevalField_table env st

/-- `parse_line_nameval` は table の末尾に partition を足すか、table に触らない。 -/
theorem parseLineNameval_table (env : Env) (dp : Script) (b : List Char) (s : Nat) :
    dp.table.getD [] <+: (parseLineNameval env dp b s).2.1.table.getD [] := by
  unfold parseLineNameval
  dsimp only
  have ht : ∀ st : LineState, st.script = dp →
      dp.table.getD [] <+: (namevalLoop env (b.length + 1) st).2.script.table.getD [] :=
    fun st h => table_prefix_of_eq ((namevalLoop_table env _ st).trans (h ▸ rfl))
  split
  · exact (ht _ (by (repeat' split) <;> rfl)).trans (table_prefix_addPartition _ _)
  · exact ht _ (by (repeat' split) <;> rfl)

theorem valcommasItem_table (env : Env) (item : Nat) (st : LineState) :
    (valcommasItem env item st).2.script.table = st.script.table := by
  unfold valcommasItem
  dsimp only
  repeat' split
  all_goals first
    | rfl
    | exact congrArg Script.table (parseStartValue_script env st)
    | exact congrArg Script.table (parseSizeValue_script env st)
    | exact typeField_table env _

theorem valcommasLoop_table (env : Env) : ∀ (fuel item : Nat) (st : LineState),
    (valcommasLoop env fuel item st).2.script.table = st.script.table
  | 0, _, _ => rfl
  | fuel + 1, item, st => by
    unfold valcommasLoop
    split
    · rfl
    · dsimp only
      have h := valcommasItem_table env item { st with pos := skipBlank st.buf st.pos }
      split <;> split
      all_goals first | exact h | exact (valcommasLoop_table env fuel _ _).trans h

/-- `parse_line_valcommas` は table の末尾に partition を足すか、table に触らない。 -/
theorem parseLineValcommas_table (env : Env) (dp : Script) (b : List Char) (s : Nat) :
    dp.table.getD [] <+: (parseLineValcommas env dp b s).2.1.table.getD [] := by
  unfold parseLineValcommas
  dsimp only
  split
  · exact (table_prefix_of_eq (valcommasLoop_table env (b.length + 1) 0 ⟨b, s, Partition.forLine, dp⟩)).trans
      (table_prefix_addPartition _ _)
  · exact table_prefix_of_eq (valcommasLoop_table env (b.length + 1) 0 ⟨b, s, Partition.forLine, dp⟩)

/-! ## header の行の parser -/

@[simp] theorem setHeader_table (a : List Bool) (dp : Script) (name data : Option (List Char)) :
    (fdiskScriptSetHeader a dp name data).2.table = dp.table := by
  unfold fdiskScriptSetHeader
  repeat' split
  all_goals simp

theorem parseLineHeader_table (env : Env) (dp : Script) (b : List Char) (s : Nat) :
    (parseLineHeader env dp b s).2.1.table = dp.table := by
  unfold parseLineHeader
  dsimp only
  repeat' split
  all_goals first | rfl | rw [setHeader_table]

/-! ## 読む一歩 -/

/--
読む一歩の前後：前の table は後の table の接頭辞で、前の table に partition があれば
header は変わらない。
-/
structure TableStep (dp dp' : Script) : Prop where
  table : dp.table.getD [] <+: dp'.table.getD []
  frozen : dp.table.getD [] ≠ [] → dp'.headers = dp.headers

theorem TableStep.of_frame {dp dp' : Script} (ht : dp'.table = dp.table) (hh : dp'.headers = dp.headers) :
    TableStep dp dp' :=
  ⟨table_prefix_of_eq ht, fun _ => hh⟩

theorem TableStep.trans {dp dp' dp'' : Script} (h : TableStep dp dp') (h' : TableStep dp' dp'') :
    TableStep dp dp'' := by
  refine ⟨h.table.trans h'.table, fun hne => ?_⟩
  have hne' : dp'.table.getD [] ≠ [] := by
    obtain ⟨t, ht⟩ := h.table
    rw [← ht]
    exact fun h => hne (List.append_eq_nil.mp h).1
  rw [h'.frozen hne', h.frozen hne]

/-- `read_buffer` は table が空のときだけ header の行を読み、partition の行は末尾に足すだけ。 -/
theorem readBuffer_tableStep (env : Env) (dp : Script) (b : List Char) (s : Nat) :
    TableStep dp (fdiskScriptReadBuffer env dp b s).2.1 := by
  unfold fdiskScriptReadBuffer
  dsimp only
  split
  · exact .of_frame rfl rfl
  have hs : TableStep dp { dp with table := some (dp.table.getD []) } := ⟨List.prefix_refl _, fun _ => rfl⟩
  split
  · next h => exact hs.trans ⟨table_prefix_of_eq (parseLineHeader_table env _ b _), fun hne => absurd h.1 hne⟩
  split
  · exact hs.trans ⟨parseLineNameval_table env _ b (skipBlank b s),
      fun _ => (parseLineNameval_keeps env _ b (skipBlank b s)).headers⟩
  · exact hs.trans ⟨parseLineValcommas_table env _ b (skipBlank b s),
      fun _ => (parseLineValcommas_keeps env _ b (skipBlank b s)).headers⟩

theorem readLine_tableStep (env : Env) (n : Nat) :
    ∀ (fuel : Nat) {dp dp' : Script}, dp'.table = dp.table → dp'.headers = dp.headers →
      ∀ (f : Stream) (b : List Char), TableStep dp (fdiskScriptReadLine env n fuel dp' f b).2.1
  | 0, _, _, ht, hh, _, _ => .of_frame ht hh
  | fuel + 1, dp, dp', ht, hh, f, b => by
    unfold fdiskScriptReadLine
    dsimp only
    split
    · exact .of_frame ht hh
    split
    · exact .of_frame ht hh
    split
    · exact readLine_tableStep env n fuel (by exact ht) (by exact hh) _ _
    · exact (TableStep.of_frame (by exact ht) (by exact hh)).trans (readBuffer_tableStep env _ _ _)

/-- **ループの前後。** 前の table は後の table の接頭辞で、前の table が空でなければ header は変わらない。 -/
theorem readFileLoop_tableStep (env : Env) :
    ∀ (fuel : Nat) (rc : Int) (dp : Script) (f : Stream) (b : List Char),
      TableStep dp (readFileLoop env fuel rc dp f b).2
  | 0, _, dp, _, _ => .of_frame rfl rfl
  | fuel + 1, rc, dp, f, b => by
    unfold readFileLoop
    dsimp only
    have h := readLine_tableStep env BUFSIZ (f.rest.length + 1) (rfl : dp.table = dp.table) rfl f b
    split
    · exact .of_frame rfl rfl
    split
    · exact h
    · exact h.trans (readFileLoop_tableStep env fuel _ _ _ _)

/--
**`fdisk_script_read_file` は table の partition を消さず、partition があれば header を読まない。**

どんな script にどんな入力を読んでも、読む前の partition は読んだ後の table の前にそのまま残る。
読む前の table に partition が一つでもあれば、入力の header の行はどれも header として読まれず、
header の列は読む前と同じになる。
-/
theorem read_file_keeps_partitions (env : Env) (dp : Script) (f : Stream) :
    dp.table.getD [] <+: (fdiskScriptReadFile env dp f).2.table.getD [] ∧
      (dp.table.getD [] ≠ [] → (fdiskScriptReadFile env dp f).2.headers = dp.headers) :=
  let h := readFileLoop_tableStep env (f.rest.length + 2) 1 dp f []
  ⟨h.table, h.frozen⟩

end Fdisk
