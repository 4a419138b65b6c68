import SimpleInit.Fdisk.Read
import SimpleInit.Fdisk.Header

/-!
# 読んだ script の header と label の cache

`fdisk_script_read_file` が script の header の列と label の cache をどう変えるかを、
header の層（`Header.lean` の `runCalls`、抽象モデル `expectAll`、`LabelCacheCurrent`）につなぐ。

行の parser のうち header を変えるのは `parse_line_header` の `fdisk_script_set_header` だけで、
`parse_line_nameval` と `parse_line_valcommas` は `script_get_label` で label の cache を埋めるか、
table に partition を足すだけである（`Keeps`）。header の行が受ける名前は `strcmp` で決まった
九つだけで、大文字小文字を無視して `"label"` に等しいのは `"label"` そのものなので、label の
header を変えるたびに cache は捨てられる。読む一歩ごとのこの二つの事実を `ReadStep` にまとめ、
行、`read_line`、`read_file` のループの順に積み上げる。

## 主な定理

* `HeaderCall.run_congr` — 呼び出しの結果は script の header の列だけで決まる
* `namevalLoop_keeps`、`valcommasLoop_keeps` — partition の行は header を変えず、label の cache を
  埋めるだけ
* `readFileLoop_step` — `read_file` の後の header の列は header の呼び出しの列で作れ、label の
  cache は合ったまま
* `read_file_header_laws` — 読んだ script の header は header の行の `set_header` の列で作れ、
  header の法則が成り立つ
* `read_file_label_current` — 読む前に label の cache が合っていれば、読んだ後も合っている
-/

namespace Fdisk

/-! ## header の呼び出しで届く -/

/-- 呼び出しの戻り値と、その後の header の列は、もとの header の列だけで決まる。 -/
theorem HeaderCall.run_congr (c : HeaderCall) {dp dp' : Script} (h : dp.headers = dp'.headers) :
    (c.run dp).1 = (c.run dp').1 ∧ (c.run dp).2.headers = (c.run dp').2.headers := by
  rcases c with ⟨a, _ | n, data⟩ | _
  · exact ⟨rfl, h⟩
  · simp only [HeaderCall.run]
    have hg : scriptGetHeader dp.headers n = scriptGetHeader dp'.headers n := by rw [h]
    rcases hg' : scriptGetHeader dp'.headers n with _ | fi <;> rcases data with _ | d
    · rw [setHeader_absent_null (hg.trans hg'), setHeader_absent_null hg']; exact ⟨rfl, h⟩
    · rw [setHeader_absent_data (hg.trans hg'), setHeader_absent_data hg']
      split <;> simp [dropLabelCache_headers, h]
    · rw [setHeader_present_null (hg.trans hg'), setHeader_present_null hg']; simp [h]
    · rw [setHeader_present_data (hg.trans hg'), setHeader_present_data hg']
      split <;> simp [dropLabelCache_headers, h]
  · exact ⟨rfl, rfl⟩

theorem runCalls_congr (cs : List HeaderCall) {dp dp' : Script} (h : dp.headers = dp'.headers) :
    (runCalls dp cs).1.headers = (runCalls dp' cs).1.headers := by
  induction cs generalizing dp dp' with
  | nil => exact h
  | cons c cs ih => exact ih (c.run_congr h).2

theorem runCalls_append (cs cs' : List HeaderCall) (dp : Script) :
    (runCalls dp (cs ++ cs')).1 = (runCalls (runCalls dp cs).1 cs').1 := by
  induction cs generalizing dp with
  | nil => rfl
  | cons c cs ih => exact ih _

/--
header の行が呼ぶ `fdisk_script_set_header`：確保はどれも成功し、名前は `parse_line_header` の
受ける九つのどれか、値は空でなく、`label` なら環境の知る label、`unit` なら `sectors`。
-/
def HeaderCall.FromLine (env : Env) : HeaderCall → Prop
  | .setHeader a (some n) (some v) =>
    a = [] ∧ n ∈ supportedHeaders ∧ v ≠ [] ∧ (n = "label".toList → (env.getLabel (some v)).isSome) ∧
      (n = "unit".toList → v = "sectors".toList)
  | _ => False

/-- `dp'` の header の列は、`dp` から header の行が呼ぶ `fdisk_script_set_header` の列で作れる。 -/
def HeadersReach (env : Env) (dp dp' : Script) : Prop :=
  ∃ cs, (∀ c ∈ cs, c.FromLine env) ∧ (runCalls dp cs).1.headers = dp'.headers

theorem HeadersReach.of_eq {env : Env} {dp dp' : Script} (h : dp.headers = dp'.headers) :
    HeadersReach env dp dp' :=
  ⟨[], fun _ h => absurd h (List.not_mem_nil _), h⟩

theorem HeadersReach.trans {env : Env} {dp dp' dp'' : Script} (h : HeadersReach env dp dp')
    (h' : HeadersReach env dp' dp'') : HeadersReach env dp dp'' := by
  obtain ⟨cs, hl, hcs⟩ := h
  obtain ⟨cs', hl', hcs'⟩ := h'
  refine ⟨cs ++ cs', fun c hc => ?_, by rw [runCalls_append, runCalls_congr cs' hcs, hcs']⟩
  rcases List.mem_append.mp hc with hc | hc
  exacts [hl c hc, hl' c hc]

theorem HeadersReach.setHeader_of_eq {env : Env} {dp dp' : Script} (h : dp'.headers = dp.headers)
    {a : List Bool} {name data : Option (List Char)} (hl : (HeaderCall.setHeader a name data).FromLine env) :
    HeadersReach env dp (fdiskScriptSetHeader a dp' name data).2 :=
  ⟨[.setHeader a name data], by simpa using hl, (HeaderCall.run_congr (.setHeader a name data) h.symm).2⟩

/-! ## label の cache -/

theorem labelCacheCurrent_congr (env : Env) {dp dp' : Script} (hh : dp'.headers = dp.headers)
    (hl : dp'.label = dp.label) : LabelCacheCurrent env dp' ↔ LabelCacheCurrent env dp := by
  unfold LabelCacheCurrent fdiskScriptGetHeader
  rw [hh, hl]

/--
名前が `"label"` そのものか、大文字小文字を無視しても `"label"` と違う header に値を入れても、
label の cache は合ったまま。
-/
theorem setHeader_current (env : Env) {a : List Bool} {dp : Script} {n d : List Char}
    (hn : n = "label".toList ∨ lower n ≠ lower "label".toList) (hc : LabelCacheCurrent env dp) :
    LabelCacheCurrent env (fdiskScriptSetHeader a dp (some n) (some d)).2 := by
  have hkeep : ∀ hs : List Header, n ≠ "label".toList →
      lookup hs "label".toList = lookup dp.headers "label".toList →
      LabelCacheCurrent env (dropLabelCache n { dp with headers := hs }) := by
    intro hs hne hl
    rw [dropLabelCache, if_neg hne]
    show dp.label = none ∨ dp.label = env.getLabel (lookup hs "label".toList)
    rw [hl]
    exact hc
  rcases hg : scriptGetHeader dp.headers n with _ | fi
  · rw [setHeader_absent_data hg]
    split
    · rcases hn with rfl | hn
      · exact Or.inl rfl
      · refine hkeep _ (fun h => hn (h ▸ rfl)) ?_
        rw [lookup_append_new (scriptGetHeader_eq_none.mp hg), if_neg (Ne.symm hn)]
    · exact hc
  · rw [setHeader_present_data hg]
    split
    · rcases hn with rfl | hn
      · exact Or.inl rfl
      · refine hkeep _ (fun h => hn (h ▸ rfl)) ?_
        rw [lookup_updateHeader (scriptGetHeader_isSome hg), if_neg (Ne.symm hn)]
    · exact hc

/-- `parse_line_header` が受ける名前で、大文字小文字を無視して `"label"` に等しいのは `"label"` だけ。 -/
theorem supportedHeaders_label :
    ∀ n ∈ supportedHeaders, n = "label".toList ∨ lower n ≠ lower "label".toList := by
  decide

/-! ## partition の行の parser -/

/-- `dp'` は `dp` と同じ header を持ち、`dp` の label の cache が合っていれば `dp'` のも合っている。 -/
structure Keeps (env : Env) (dp dp' : Script) : Prop where
  headers : dp'.headers = dp.headers
  current : LabelCacheCurrent env dp → LabelCacheCurrent env dp'

theorem Keeps.refl (env : Env) (dp : Script) : Keeps env dp dp := ⟨rfl, id⟩

theorem Keeps.of_eq {env : Env} {dp dp' : Script} (h : dp' = dp) : Keeps env dp dp' :=
  h ▸ .refl env dp

theorem Keeps.trans {env : Env} {dp dp' dp'' : Script} (h : Keeps env dp dp')
    (h' : Keeps env dp' dp'') : Keeps env dp dp'' :=
  ⟨h'.headers.trans h.headers, h'.current ∘ h.current⟩

/-- table に partition を足しても header と label の cache は変わらない。 -/
theorem Keeps.addPartition {env : Env} {dp dp' : Script} (h : Keeps env dp dp') (pa : Partition) :
    Keeps env dp (addPartition dp' pa) :=
  ⟨h.headers, fun hc => h.current hc⟩

/-- `if` のどちらの枝も `Keeps` なら、`if` も `Keeps`。 -/
theorem keeps_ite {env : Env} {dp : Script} {c : Prop} [Decidable c] {x y : Int × LineState}
    (hx : Keeps env dp x.2.script) (hy : Keeps env dp y.2.script) :
    Keeps env dp (if c then x else y).2.script := by
  split <;> assumption

/-- `script_get_label` が変えるのは label の cache だけ。 -/
theorem scriptGetLabel_headers (env : Env) (dp : Script) :
    (scriptGetLabel env dp).2.headers = dp.headers := by
  unfold scriptGetLabel; split <;> rfl

/-- start と size の項目は script に触らない。 -/
theorem parseStartValue_script (env : Env) (st : LineState) :
    (parseStartValue env st).2.script = st.script := by
  unfold parseStartValue
  repeat' split
  all_goals rfl

theorem parseSizeValue_script (env : Env) (st : LineState) :
    (parseSizeValue env st).2.script = st.script := by
  unfold parseSizeValue
  repeat' split
  all_goals rfl

/-- type の項目は `script_get_label` で label の cache を埋める。 -/
theorem typeField_keeps (env : Env) {dp : Script} {st : LineState} (h : st.script = dp) :
    Keeps env dp (typeField env st).2.script := by
  subst h
  unfold typeField
  dsimp only
  split
  · exact ⟨scriptGetLabel_headers env _, scriptGetLabel_current env _⟩
  · exact .refl env _

theorem namevalField_keeps (env : Env) (st : LineState) :
    Keeps env st.script (namevalField env st).2.script := by
  unfold namevalField stringField
  dsimp only
  refine keeps_ite (.of_eq (parseStartValue_script env _)) <|
    keeps_ite (.of_eq (parseSizeValue_script env _)) <| keeps_ite ?_ <|
    keeps_ite (.refl env _) <| keeps_ite (.refl env _) <| keeps_ite (.refl env _) <|
    keeps_ite (typeField_keeps env (by exact rfl)) (.refl env _)
  split
  · split <;> exact .refl env _
  · exact .refl env _

theorem namevalLoop_keeps (env : Env) :
    ∀ (fuel : Nat) {dp : Script} {st : LineState}, st.script = dp →
      Keeps env dp (namevalLoop env fuel st).2.script
  | 0, _, _, h => .of_eq h
  | fuel + 1, _, st, h => by
    subst h
    unfold namevalLoop
    split
    · exact .refl env _
    · dsimp only
      split
      · exact (namevalField_keeps env st).trans (namevalLoop_keeps env fuel (by exact rfl))
      · exact namevalField_keeps env st

theorem parseLineNameval_keeps (env : Env) (dp : Script) (b : List Char) (s : Nat) :
    Keeps env dp (parseLineNameval env dp b s).2.1 := by
  unfold parseLineNameval
  dsimp only
  split
  · exact (namevalLoop_keeps env _ (by (repeat' split) <;> rfl)).addPartition _
  · exact namevalLoop_keeps env _ (by (repeat' split) <;> rfl)

theorem valcommasItem_keeps (env : Env) (item : Nat) (st : LineState) :
    Keeps env st.script (valcommasItem env item st).2.script := by
  unfold valcommasItem
  dsimp only
  repeat' split
  all_goals first
    | exact .refl env _
    | exact .of_eq (parseStartValue_script env st)
    | exact .of_eq (parseSizeValue_script env st)
    | exact typeField_keeps env (by exact rfl)

theorem valcommasLoop_keeps (env : Env) :
    ∀ (fuel item : Nat) {dp : Script} {st : LineState}, st.script = dp →
      Keeps env dp (valcommasLoop env fuel item st).2.script
  | 0, _, _, _, h => .of_eq h
  | fuel + 1, item, _, st, h => by
    subst h
    unfold valcommasLoop
    split
    · exact .refl env _
    · dsimp only
      have h := valcommasItem_keeps env item { st with pos := skipBlank st.buf st.pos }
      split <;> split
      all_goals first | exact h | exact h.trans (valcommasLoop_keeps env fuel _ (by exact rfl))

theorem parseLineValcommas_keeps (env : Env) (dp : Script) (b : List Char) (s : Nat) :
    Keeps env dp (parseLineValcommas env dp b s).2.1 := by
  unfold parseLineValcommas
  dsimp only
  split
  · exact (valcommasLoop_keeps env _ _ (by exact rfl)).addPartition _
  · exact valcommasLoop_keeps env _ _ (by exact rfl)

/-! ## 行、`read_line`、`read_file` -/

/-- 読む一歩の前後：header の列は header の呼び出しで作れ、label の cache が合っていれば合ったまま。 -/
structure ReadStep (env : Env) (dp dp' : Script) : Prop where
  reach : HeadersReach env dp dp'
  current : LabelCacheCurrent env dp → LabelCacheCurrent env dp'

theorem ReadStep.of_keeps {env : Env} {dp dp' : Script} (h : Keeps env dp dp') : ReadStep env dp dp' :=
  ⟨.of_eq h.headers.symm, h.current⟩

/-- header と label の cache が同じ script（table、行の数、`force_label` だけが違う）。 -/
theorem ReadStep.of_same {env : Env} {dp dp' : Script} (hh : dp'.headers = dp.headers)
    (hl : dp'.label = dp.label) : ReadStep env dp dp' :=
  ⟨.of_eq hh.symm, (labelCacheCurrent_congr env hh hl).mpr⟩

theorem ReadStep.trans {env : Env} {dp dp' dp'' : Script} (h : ReadStep env dp dp')
    (h' : ReadStep env dp' dp'') : ReadStep env dp dp'' :=
  ⟨h.reach.trans h'.reach, h'.current ∘ h.current⟩

/-- header の行は `fdisk_script_set_header` を一度呼ぶか、何もしない。 -/
theorem parseLineHeader_step (env : Env) {dp dp' : Script} (hh : dp'.headers = dp.headers)
    (hl : dp'.label = dp.label) (b : List Char) (s : Nat) :
    ReadStep env dp (parseLineHeader env dp' b s).2.1 := by
  unfold parseLineHeader
  dsimp only
  split
  · exact .of_same hh hl
  split
  · exact .of_same hh hl
  split
  · exact .of_same hh hl
  rename_i hempty
  split
  · exact .of_same hh hl
  rename_i hsup
  split
  · exact .of_same hh hl
  rename_i hlabel
  split
  · exact .of_same hh hl
  rename_i hunit
  have hline : (HeaderCall.setHeader [] (some _) (some _)).FromLine env :=
    ⟨rfl, not_not.mp hsup, fun h => hempty (.inr h), fun h => by simpa [h, Option.isSome_iff_ne_none] using hlabel,
      fun h => by simpa [h] using hunit⟩
  refine ⟨HeadersReach.setHeader_of_eq (by split <;> exact hh) hline, fun hc => ?_⟩
  refine setHeader_current env (supportedHeaders_label _ (not_not.mp hsup)) ?_
  split <;> exact (labelCacheCurrent_congr env hh hl).mpr hc

theorem readBuffer_step (env : Env) {dp dp' : Script} (hh : dp'.headers = dp.headers)
    (hl : dp'.label = dp.label) (b : List Char) (s : Nat) :
    ReadStep env dp (fdiskScriptReadBuffer env dp' b s).2.1 := by
  unfold fdiskScriptReadBuffer
  dsimp only
  split
  · exact .of_same hh hl
  split
  · exact parseLineHeader_step env (by exact hh) (by exact hl) b _
  have hs : ReadStep env dp { dp' with table := some (dp'.table.getD []) } := .of_same hh hl
  split
  · exact hs.trans (.of_keeps (parseLineNameval_keeps env _ b _))
  · exact hs.trans (.of_keeps (parseLineValcommas_keeps env _ b _))

theorem readLine_step (env : Env) (n : Nat) :
    ∀ (fuel : Nat) {dp dp' : Script}, dp'.headers = dp.headers → dp'.label = dp.label →
      ∀ (f : Stream) (b : List Char), ReadStep env dp (fdiskScriptReadLine env n fuel dp' f b).2.1
  | 0, _, _, hh, hl, _, _ => .of_same hh hl
  | fuel + 1, dp, dp', hh, hl, f, b => by
    unfold fdiskScriptReadLine
    dsimp only
    split
    · exact .of_same hh hl
    split
    · exact .of_same hh hl
    split
    · exact readLine_step env n fuel (by exact hh) (by exact hl) _ _
    · exact readBuffer_step env (by exact hh) (by exact hl) _ _

theorem readFileLoop_step (env : Env) :
    ∀ (fuel : Nat) (rc : Int) (dp : Script) (f : Stream) (b : List Char),
      ReadStep env dp (readFileLoop env fuel rc dp f b).2
  | 0, _, dp, _, _ => .of_same rfl rfl
  | fuel + 1, rc, dp, f, b => by
    unfold readFileLoop
    dsimp only
    have h := readLine_step env BUFSIZ (f.rest.length + 1) (rfl : dp.headers = dp.headers) rfl f b
    split
    · exact .of_same rfl rfl
    split
    · exact h
    · exact h.trans (readFileLoop_step env fuel _ _ _ _)

/--
**`fdisk_script_read_file` の間、label の cache は `"label"` の header に合ったまま。**

cache を埋めるのは partition の行の type の項目だけで、header を変えるのは header の行だけ。
header の行が受ける名前のうち label の header に当たるのは `"label"` そのものだけで、
その `set_header` は cache を捨てる。だから cache が古くなるのは、`fdisk_script_set_header` を
別の綴りの名前や NULL の値で直に呼んだときだけである。
-/
theorem read_file_label_current (env : Env) (dp : Script) (f : Stream)
    (hc : LabelCacheCurrent env dp) : LabelCacheCurrent env (fdiskScriptReadFile env dp f).2 :=
  (readFileLoop_step env (f.rest.length + 2) 1 dp f []).current hc

/-- DOS の label の header と partition の一行を読むと、cache は `dos` の label で埋まって合っている。 -/
theorem read_file_label_current_fresh :
    LabelCacheCurrent Env.dosGpt Script.fresh ∧
      (fdiskScriptReadFile Env.dosGpt Script.fresh (.ofText "label: dos\n, , 83\n".toList)).2.label =
        some ⟨"dos".toList, true⟩ ∧
      LabelCacheCurrent Env.dosGpt
        (fdiskScriptReadFile Env.dosGpt Script.fresh (.ofText "label: dos\n, , 83\n".toList)).2 :=
  ⟨Or.inl rfl, by decide, read_file_label_current Env.dosGpt Script.fresh _ (Or.inl rfl)⟩

end Fdisk
