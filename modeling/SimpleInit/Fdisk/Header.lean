import Mathlib.Data.List.Nodup
import SimpleInit.Fdisk.Script

/-!
# header の列の性質

`fdisk_script_set_header` と `fdisk_reset_script` をどう並べて呼んでも、

* header の名前は大文字小文字を無視して重複しない（`NoDupKeys`）
* `fdisk_script_get_header(dp, n)` は、最後の reset より後で最後に成功した
  `set_header(dp, n', data)`（`n'` は `n` と大文字小文字を無視して等しい）の `data` を返す
* 失敗した呼び出し（`-EINVAL`、どこかの確保の `-ENOMEM`）は script を変えない

抽象モデルは「小文字にした名前から data への写像」で、各呼び出しは戻り値が 0 のときだけ
その写像を一点で書き換える（`HeaderCall.expect`）。`runCalls_spec` が、実装の列をこの写像が
正しく表し続けることを言う。

label の cache はこの不変条件に入らない。`label_cache_stale` はそれが崩れる呼び出し列である。
-/

namespace Fdisk

/-! ## 列の上の検索 -/

/-- 名前を小文字にしたものに重複がない。`strcasecmp` で等しい header が二つない。 -/
def NoDupKeys (hs : List Header) : Prop := (hs.map fun fi => lower fi.name).Nodup

/-- 列の上の `fdisk_script_get_header`。 -/
def lookup (hs : List Header) (m : List Char) : Option (List Char) :=
  (scriptGetHeader hs m).map (·.data)

@[simp] theorem lookup_nil (m : List Char) : lookup [] m = none := rfl

@[simp] theorem strcasecmpEq_eq (a b : List Char) :
    strcasecmpEq a b = decide (lower a = lower b) := rfl

theorem lookup_cons (fi : Header) (hs : List Header) (m : List Char) :
    lookup (fi :: hs) m = if lower fi.name = lower m then some fi.data else lookup hs m := by
  unfold lookup scriptGetHeader
  rw [List.find?_cons]
  by_cases h : lower fi.name = lower m <;> simp [h]

theorem scriptGetHeader_eq_none {hs : List Header} {n : List Char} :
    scriptGetHeader hs n = none ↔ ∀ fi ∈ hs, lower fi.name ≠ lower n := by
  simp [scriptGetHeader]

theorem scriptGetHeader_isSome {hs : List Header} {n : List Char} {fi : Header}
    (h : scriptGetHeader hs n = some fi) : ∃ g ∈ hs, lower g.name = lower n :=
  ⟨fi, List.mem_of_find?_eq_some h, by simpa using List.find?_some h⟩

/-- 見つからなかった名前を末尾に足す。 -/
theorem lookup_append_new {hs : List Header} {n d : List Char}
    (h : ∀ fi ∈ hs, lower fi.name ≠ lower n) (m : List Char) :
    lookup (hs ++ [⟨n, d⟩]) m = if lower m = lower n then some d else lookup hs m := by
  induction hs with
  | nil =>
    by_cases hm : lower m = lower n
    · simp [lookup_cons, hm]
    · simp [lookup_cons, hm, Ne.symm hm]
  | cons fi rest ih =>
    have hfi := h fi (by simp)
    rw [List.cons_append, lookup_cons, lookup_cons, ih (fun g hg => h g (by simp [hg]))]
    by_cases hk : lower fi.name = lower m
    · simp [hk, show ¬ lower m = lower n from fun e => hfi (hk.trans e)]
    · simp [hk]

/-- 見つかった header の data を差し替える。 -/
theorem lookup_updateHeader {hs : List Header} {n d : List Char}
    (h : ∃ g ∈ hs, lower g.name = lower n) (m : List Char) :
    lookup (updateHeader n d hs) m = if lower m = lower n then some d else lookup hs m := by
  induction hs with
  | nil => simp at h
  | cons fi rest ih =>
    by_cases hn : lower fi.name = lower n
    · have hu : updateHeader n d (fi :: rest) = { fi with data := d } :: rest := by
        simp [updateHeader, hn]
      rw [hu, lookup_cons, lookup_cons]
      by_cases hm : lower m = lower n
      · simp [hn, hm]
      · simp [hn, hm, Ne.symm hm]
    · have hu : updateHeader n d (fi :: rest) = fi :: updateHeader n d rest := by
        simp [updateHeader, hn]
      have h' : ∃ g ∈ rest, lower g.name = lower n := by
        obtain ⟨g, hg, hgk⟩ := h
        rcases List.mem_cons.mp hg with rfl | hg
        · exact absurd hgk hn
        · exact ⟨g, hg, hgk⟩
      rw [hu, lookup_cons, lookup_cons, ih h']
      by_cases hk : lower fi.name = lower m
      · simp [hk, show ¬ lower m = lower n from fun e => hn (hk.trans e)]
      · simp [hk]

/-- 見つかった header を外す。鍵に重複がないので、外した後に同じ名前は残らない。 -/
theorem lookup_removeHeader {hs : List Header} {n : List Char} (hnd : NoDupKeys hs)
    (m : List Char) :
    lookup (removeHeader n hs) m = if lower m = lower n then none else lookup hs m := by
  induction hs with
  | nil => simp [removeHeader]
  | cons fi rest ih =>
    have hnd' : NoDupKeys rest := (List.nodup_cons.mp hnd).2
    by_cases hn : lower fi.name = lower n
    · have hr : removeHeader n (fi :: rest) = rest := by simp [removeHeader, hn]
      rw [hr, lookup_cons]
      by_cases hm : lower m = lower n
      · have hnot : ∀ g ∈ rest, lower g.name ≠ lower m := fun g hg he =>
          (List.nodup_cons.mp hnd).1 (List.mem_map.mpr ⟨g, hg, he.trans (hm.trans hn.symm)⟩)
        simp [hm, lookup, scriptGetHeader_eq_none.mpr hnot]
      · simp [hm, hn, Ne.symm hm]
    · have hr : removeHeader n (fi :: rest) = fi :: removeHeader n rest := by
        simp [removeHeader, hn]
      rw [hr, lookup_cons, lookup_cons, ih hnd']
      by_cases hk : lower fi.name = lower m
      · simp [hk, show ¬ lower m = lower n from fun e => hn (hk.trans e)]
      · simp [hk]

/-! ## 重複のなさ -/

theorem noDupKeys_append_new {hs : List Header} {n d : List Char} (hnd : NoDupKeys hs)
    (h : ∀ fi ∈ hs, lower fi.name ≠ lower n) : NoDupKeys (hs ++ [⟨n, d⟩]) := by
  unfold NoDupKeys
  rw [List.map_append, List.nodup_append_comm]
  refine List.nodup_cons.mpr ⟨fun hm => ?_, hnd⟩
  obtain ⟨fi, hfi, he⟩ := List.mem_map.mp hm
  exact h fi hfi he

theorem noDupKeys_updateHeader {hs : List Header} (n d : List Char) (hnd : NoDupKeys hs) :
    NoDupKeys (updateHeader n d hs) := by
  have : (updateHeader n d hs).map (fun fi => lower fi.name) = hs.map (fun fi => lower fi.name) := by
    induction hs with
    | nil => rfl
    | cons fi rest ih =>
      unfold updateHeader
      split <;> simp [ih (List.nodup_cons.mp hnd).2]
  unfold NoDupKeys
  rwa [this]

theorem noDupKeys_removeHeader {hs : List Header} (n : List Char) (hnd : NoDupKeys hs) :
    NoDupKeys (removeHeader n hs) :=
  List.Nodup.sublist ((List.eraseP_sublist hs).map _) hnd

theorem lookup_eq_none {hs : List Header} {n m : List Char} (h : scriptGetHeader hs n = none)
    (hm : lower m = lower n) : lookup hs m = none := by
  simp [lookup, scriptGetHeader, hm] at h ⊢
  exact h

/-! ## 一回の呼び出し -/

@[simp] theorem dropLabelCache_headers (n : List Char) (dp : Script) :
    (dropLabelCache n dp).headers = dp.headers := by
  unfold dropLabelCache; split <;> rfl

@[simp] theorem dropLabelCache_table (n : List Char) (dp : Script) :
    (dropLabelCache n dp).table = dp.table := by
  unfold dropLabelCache; split <;> rfl

/-! `fdisk_script_set_header` の分岐ごとの式。以後の証明はこれだけを引く。 -/

theorem setHeader_null_name (a : List Bool) (dp : Script) (data : Option (List Char)) :
    fdiskScriptSetHeader a dp none data = (-EINVAL, dp) := rfl

theorem setHeader_absent_null {a : List Bool} {dp : Script} {n : List Char}
    (h : scriptGetHeader dp.headers n = none) : fdiskScriptSetHeader a dp (some n) none = (0, dp) := by
  simp only [fdiskScriptSetHeader, h]

theorem setHeader_present_null {a : List Bool} {dp : Script} {n : List Char} {fi : Header}
    (h : scriptGetHeader dp.headers n = some fi) :
    fdiskScriptSetHeader a dp (some n) none = (0, { dp with headers := removeHeader n dp.headers }) := by
  simp only [fdiskScriptSetHeader, h]

theorem setHeader_absent_data {a : List Bool} {dp : Script} {n d : List Char}
    (h : scriptGetHeader dp.headers n = none) :
    fdiskScriptSetHeader a dp (some n) (some d) =
      if allocOk a 0 && allocOk a 1 && allocOk a 2 then
        (0, dropLabelCache n { dp with headers := dp.headers ++ [⟨n, d⟩] })
      else (-ENOMEM, dp) := by
  simp only [fdiskScriptSetHeader, h]

theorem setHeader_present_data {a : List Bool} {dp : Script} {n d : List Char} {fi : Header}
    (h : scriptGetHeader dp.headers n = some fi) :
    fdiskScriptSetHeader a dp (some n) (some d) =
      if allocOk a 0 then (0, dropLabelCache n { dp with headers := updateHeader n d dp.headers })
      else (-ENOMEM, dp) := by
  simp only [fdiskScriptSetHeader, h]

/-- 失敗した `set_header` は script を変えない。 -/
theorem fdiskScriptSetHeader_fail {a : List Bool} {dp : Script} {name data : Option (List Char)}
    (h : (fdiskScriptSetHeader a dp name data).1 ≠ 0) :
    (fdiskScriptSetHeader a dp name data).2 = dp := by
  rcases name with _ | n
  · rfl
  rcases hg : scriptGetHeader dp.headers n with _ | fi <;> rcases data with _ | d
  · rw [setHeader_absent_null hg]
  · rw [setHeader_absent_data hg] at h ⊢; split <;> simp_all
  · rw [setHeader_present_null hg] at h; simp at h
  · rw [setHeader_present_data hg] at h ⊢; split <;> simp_all

/-- 名前が NULL でなく、確保がどれも成功すれば、`set_header` は 0 を返す。 -/
theorem fdiskScriptSetHeader_ok {a : List Bool} (dp : Script) (n : List Char) (data : Option (List Char))
    (ha : (allocOk a 0 && allocOk a 1 && allocOk a 2) = true) :
    (fdiskScriptSetHeader a dp (some n) data).1 = 0 := by
  rcases hg : scriptGetHeader dp.headers n with _ | fi <;> rcases data with _ | d
  · rw [setHeader_absent_null hg]
  · rw [setHeader_absent_data hg, if_pos ha]
  · rw [setHeader_present_null hg]
  · simp only [Bool.and_eq_true] at ha
    rw [setHeader_present_data hg, if_pos ha.1.1]

/-- header の列に対する呼び出し。 -/
inductive HeaderCall
  | setHeader (a : List Bool) (name data : Option (List Char))
  | reset

/-- 呼び出しを一つ実行する。`fdisk_reset_script` は値を返さないので 0 と置く。 -/
def HeaderCall.run (dp : Script) : HeaderCall → Int × Script
  | .setHeader a name data => fdiskScriptSetHeader a dp name data
  | .reset => (0, fdiskResetScript dp)

/-- 抽象モデル：戻り値 `rc` の呼び出しの後で、名前 `m` の値 `v` がどうなるか。 -/
def HeaderCall.expect (m : List Char) (v : Option (List Char)) (rc : Int) :
    HeaderCall → Option (List Char)
  | .reset => none
  | .setHeader _ (some n) data => if rc = 0 ∧ lower m = lower n then data else v
  | .setHeader _ none _ => v

/-- 一回の呼び出しは重複のなさを保ち、抽象モデルの一歩に従う。 -/
theorem HeaderCall.run_spec (c : HeaderCall) (dp : Script) (hnd : NoDupKeys dp.headers) :
    NoDupKeys (c.run dp).2.headers ∧
      ∀ m, lookup (c.run dp).2.headers m = c.expect m (lookup dp.headers m) (c.run dp).1 := by
  rcases c with ⟨a, _ | n, data⟩ | _
  · exact ⟨hnd, fun m => rfl⟩
  · simp only [HeaderCall.run]
    rcases hg : scriptGetHeader dp.headers n with _ | fi <;> rcases data with _ | d
    · rw [setHeader_absent_null hg]
      refine ⟨hnd, fun m => ?_⟩
      by_cases hm : lower m = lower n
      · simp [HeaderCall.expect, hm, lookup_eq_none hg hm]
      · simp [HeaderCall.expect, hm]
    · have hnone := scriptGetHeader_eq_none.mp hg
      rw [setHeader_absent_data hg]
      split
      · exact ⟨by simpa using noDupKeys_append_new hnd hnone, fun m => by
          simp [HeaderCall.expect, lookup_append_new hnone]⟩
      · exact ⟨hnd, fun m => by simp [HeaderCall.expect, ENOMEM]⟩
    · rw [setHeader_present_null hg]
      exact ⟨noDupKeys_removeHeader n hnd, fun m => by
        simp [HeaderCall.expect, lookup_removeHeader hnd]⟩
    · have hsome := scriptGetHeader_isSome hg
      rw [setHeader_present_data hg]
      split
      · exact ⟨by simpa using noDupKeys_updateHeader n d hnd, fun m => by
          simp [HeaderCall.expect, lookup_updateHeader hsome]⟩
      · exact ⟨hnd, fun m => by simp [HeaderCall.expect, ENOMEM]⟩
  · exact ⟨List.nodup_nil, fun m => rfl⟩

/-! ## 呼び出しの列 -/

/-- 呼び出しの列を順に実行し、最後の script と各呼び出しの戻り値を返す。 -/
def runCalls (dp : Script) : List HeaderCall → Script × List Int
  | [] => (dp, [])
  | c :: cs =>
    let r := c.run dp
    let rest := runCalls r.2 cs
    (rest.1, r.1 :: rest.2)

/-- 抽象モデルを呼び出しの列と戻り値の列に沿って進める。 -/
def expectAll (m : List Char) : Option (List Char) → List HeaderCall → List Int →
    Option (List Char)
  | v, c :: cs, rc :: rcs => expectAll m (c.expect m v rc) cs rcs
  | v, _, _ => v

theorem runCalls_spec (calls : List HeaderCall) (dp : Script) (hnd : NoDupKeys dp.headers) :
    NoDupKeys (runCalls dp calls).1.headers ∧
      ∀ m, lookup (runCalls dp calls).1.headers m =
        expectAll m (lookup dp.headers m) calls (runCalls dp calls).2 := by
  induction calls generalizing dp with
  | nil => exact ⟨hnd, fun m => rfl⟩
  | cons c cs ih =>
    obtain ⟨hnd', hstep⟩ := c.run_spec dp hnd
    obtain ⟨hnd'', hrun⟩ := ih (c.run dp).2 hnd'
    exact ⟨hnd'', fun m => by simp only [runCalls, expectAll, hrun m, hstep m]⟩

/--
**header の列の三つの法則。**

重複のない header の列から始めて、`set_header`（どんな名前、どんな data、NULL を含む、
どこでの確保の失敗も含む）と reset をどう並べても、

1. 名前は大文字小文字を無視して重複しない
2. `fdisk_script_get_header(dp, m)` は抽象モデル `expectAll` の値に等しい。
   つまり最後の reset の後で最後に成功した、`m` と大文字小文字を無視して等しい名前への
   `set_header` の data（それが NULL なら NULL）。そういう呼び出しがなければ、
   reset の後なら NULL、reset もなければ最初の値
3. 失敗した `set_header` は、どの script についても何も変えない
4. 名前が NULL でなく確保がどれも成功した `set_header` は、どの script についても 0 を返す
-/
theorem set_header_reset_laws (dp : Script) (hnd : NoDupKeys dp.headers)
    (calls : List HeaderCall) :
    NoDupKeys (runCalls dp calls).1.headers ∧
      (∀ m, fdiskScriptGetHeader (runCalls dp calls).1 m =
        expectAll m (fdiskScriptGetHeader dp m) calls (runCalls dp calls).2) ∧
      (∀ a dp' name data, (fdiskScriptSetHeader a dp' name data).1 ≠ 0 →
        (fdiskScriptSetHeader a dp' name data).2 = dp') ∧
      (∀ a dp' n data, (allocOk a 0 && allocOk a 1 && allocOk a 2) = true →
        (fdiskScriptSetHeader a dp' (some n) data).1 = 0) :=
  ⟨(runCalls_spec calls dp hnd).1, (runCalls_spec calls dp hnd).2,
    fun _ _ _ _ h => fdiskScriptSetHeader_fail h, fun _ dp' n data ha => fdiskScriptSetHeader_ok dp' n data ha⟩

/-- 名前の大文字小文字だけ違う二つの `set_header` と、data の確保に失敗する一つ。 -/
def headerCallsSample : List HeaderCall :=
  [.setHeader [] (some "Label".toList) (some "dos".toList),
    .setHeader [true, false] (some "unit".toList) (some "sectors".toList),
    .setHeader [] (some "label".toList) (some "gpt".toList)]

theorem set_header_reset_laws_fresh :
    NoDupKeys Script.fresh.headers ∧
      NoDupKeys (runCalls Script.fresh headerCallsSample).1.headers ∧
      (∀ m, fdiskScriptGetHeader (runCalls Script.fresh headerCallsSample).1 m =
        expectAll m (fdiskScriptGetHeader Script.fresh m) headerCallsSample
          (runCalls Script.fresh headerCallsSample).2) ∧
      (∀ a dp' name data, (fdiskScriptSetHeader a dp' name data).1 ≠ 0 →
        (fdiskScriptSetHeader a dp' name data).2 = dp') ∧
      (∀ a dp' n data, (allocOk a 0 && allocOk a 1 && allocOk a 2) = true →
        (fdiskScriptSetHeader a dp' (some n) data).1 = 0) :=
  ⟨List.nodup_nil, set_header_reset_laws Script.fresh List.nodup_nil headerCallsSample⟩

/-! ## label の cache -/

/-- cache が空か、今の `"label"` header で引いた label に等しい。 -/
def LabelCacheCurrent (env : Env) (dp : Script) : Prop :=
  dp.label = none ∨ dp.label = env.getLabel (fdiskScriptGetHeader dp "label".toList)

/-- cache が空でなく、今の header で引いた label と違えば、cache は合っていない。 -/
theorem not_labelCacheCurrent {env : Env} {dp : Script} (h₀ : dp.label ≠ none)
    (h₁ : dp.label ≠ env.getLabel (fdiskScriptGetHeader dp "label".toList)) : ¬ LabelCacheCurrent env dp :=
  fun h => h.elim h₀ h₁

/-- `script_get_label` は cache を今の header に合わせる。 -/
theorem scriptGetLabel_current (env : Env) (dp : Script) (h : LabelCacheCurrent env dp) :
    LabelCacheCurrent env (scriptGetLabel env dp).2 := by
  unfold scriptGetLabel
  split
  · exact h
  · exact Or.inr rfl

/--
**cache が古くなる呼び出し列。**

`"label"` を `dos` にして cache を埋めた後、

* `"LABEL"` で `gpt` にすると、header は大文字小文字を無視して見つかり書き換わるが、
  cache を捨てる比較は `strcmp(name, "label")` なので cache は `dos` のまま残る
* NULL で header を外すと、外す分岐は cache を捨てる行より前で戻るので、やはり `dos` が残る

label の検索がどうであっても、cache は `dos` で引いた値、header は `gpt` か無し。`dos` を知り、
それが `gpt`（header が無いときは NULL）で引いた値と違う環境では、cache は合っていない。
-/
theorem label_cache_stale (env : Env) :
    let dp₁ := (fdiskScriptSetHeader [] Script.fresh (some "label".toList) (some "dos".toList)).2
    let dp₂ := (scriptGetLabel env dp₁).2
    let dp₃ := (fdiskScriptSetHeader [] dp₂ (some "LABEL".toList) (some "gpt".toList)).2
    let dp₄ := (fdiskScriptSetHeader [] dp₂ (some "label".toList) none).2
    dp₃.label = env.getLabel (some "dos".toList) ∧
      fdiskScriptGetHeader dp₃ "label".toList = some "gpt".toList ∧
      dp₄.label = env.getLabel (some "dos".toList) ∧
      fdiskScriptGetHeader dp₄ "label".toList = none ∧
      ((env.getLabel (some "dos".toList)).isSome →
        env.getLabel (some "dos".toList) ≠ env.getLabel (some "gpt".toList) → ¬ LabelCacheCurrent env dp₃) ∧
      ((env.getLabel (some "dos".toList)).isSome →
        env.getLabel (some "dos".toList) ≠ env.getLabel none → ¬ LabelCacheCurrent env dp₄) := by
  intro dp₁ dp₂ dp₃ dp₄
  have h₃ : dp₃.label = env.getLabel (some "dos".toList) := rfl
  have h₄ : dp₄.label = env.getLabel (some "dos".toList) := rfl
  have g₃ : fdiskScriptGetHeader dp₃ "label".toList = some "gpt".toList := rfl
  have g₄ : fdiskScriptGetHeader dp₄ "label".toList = none := rfl
  refine ⟨h₃, g₃, h₄, g₄, fun hs hne => ?_, fun hs hne => ?_⟩
  · exact not_labelCacheCurrent (h₃ ▸ Option.ne_none_iff_isSome.mpr hs) (by rwa [h₃, g₃])
  · exact not_labelCacheCurrent (h₄ ▸ Option.ne_none_iff_isSome.mpr hs) (by rwa [h₄, g₄])

/-- `Env.bare` に DOS と GPT の label を足し、label があれば type の文字をそのまま type に読む環境。 -/
def Env.dosGpt : Env :=
  { Env.bare with
    getLabel := fun n =>
      if n = some "dos".toList then some ⟨"dos".toList, true⟩
      else if n = some "gpt".toList then some ⟨"gpt".toList, false⟩ else none
    advparseParttype := fun lb s => lb.map fun _ => ⟨some s, 0⟩ }

/-- DOS と GPT を知る環境では、二つの列のどちらの後も cache は `dos` のまま合っていない。 -/
theorem label_cache_stale_dosGpt :
    (Env.dosGpt.getLabel (some "dos".toList)).isSome = true ∧
      Env.dosGpt.getLabel (some "dos".toList) ≠ Env.dosGpt.getLabel (some "gpt".toList) ∧
      Env.dosGpt.getLabel (some "dos".toList) ≠ Env.dosGpt.getLabel none ∧
      ¬ LabelCacheCurrent Env.dosGpt (fdiskScriptSetHeader []
        (scriptGetLabel Env.dosGpt (fdiskScriptSetHeader [] Script.fresh (some "label".toList)
          (some "dos".toList)).2).2 (some "LABEL".toList) (some "gpt".toList)).2 ∧
      ¬ LabelCacheCurrent Env.dosGpt (fdiskScriptSetHeader []
        (scriptGetLabel Env.dosGpt (fdiskScriptSetHeader [] Script.fresh (some "label".toList)
          (some "dos".toList)).2).2 (some "label".toList) none).2 := by
  have hs : (Env.dosGpt.getLabel (some "dos".toList)).isSome = true := by decide
  have hg : Env.dosGpt.getLabel (some "dos".toList) ≠ Env.dosGpt.getLabel (some "gpt".toList) := by decide
  have hn : Env.dosGpt.getLabel (some "dos".toList) ≠ Env.dosGpt.getLabel none := by decide
  exact ⟨hs, hg, hn, (label_cache_stale Env.dosGpt).2.2.2.2.1 hs hg,
    (label_cache_stale Env.dosGpt).2.2.2.2.2 hs hn⟩

end Fdisk
