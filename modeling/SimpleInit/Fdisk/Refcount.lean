import Mathlib.Logic.Function.Basic
import SimpleInit.Fdisk.Header

/-!
# script の参照カウント

`fdisk_new_script`、`fdisk_ref_script`、`fdisk_unref_script`、`fdisk_set_script`、
`fdisk_apply_script_headers`、`fdisk_apply_script` を、script の番号から参照カウントへの
写像の上の操作として写す。`fdisk_unref_script` がカウントを 0 以下にした script は
`freed` になり、中身は `fdisk_reset_script` で空になる。

* `fdiskApplyScript_eq_self` — 参照が生きていれば `fdisk_apply_script` は状態を全く変えない。
  どの外部関数がどんな値を返しても、`fdisk_apply_script_headers` のどの出口でも。
* `set_script_self_frees` — `fdisk_set_script(cxt, cxt->script)` は、context だけが参照を
  持っているとき script を解放してしまう。unref が ref より先にあるからである。
-/

namespace Fdisk

/-- script の heap と context の `script` 欄。script は番号で指す。 -/
structure RcState where
  /-- `dp->refcount`。 -/
  refcount : Nat → Int
  /-- `free(dp)` が済んだか。 -/
  freed : Nat → Bool
  /-- script の中身。 -/
  content : Nat → Script
  /-- 次の `calloc` が返す番号。 -/
  next : Nat
  /-- `cxt->script`。 -/
  script : Option Nat

/-- `fdisk_ref_script`。 -/
def fdiskRefScript (s : RcState) : Option Nat → RcState
  | none => s
  | some dp => { s with refcount := Function.update s.refcount dp (s.refcount dp + 1) }

/-- `fdisk_unref_script`。0 以下になったら reset して解放する。 -/
def fdiskUnrefScript (s : RcState) : Option Nat → RcState
  | none => s
  | some dp =>
    if s.refcount dp - 1 ≤ 0 then
      { s with refcount := Function.update s.refcount dp (s.refcount dp - 1),
               freed := Function.update s.freed dp true,
               content := Function.update s.content dp (fdiskResetScript (s.content dp)) }
    else { s with refcount := Function.update s.refcount dp (s.refcount dp - 1) }

/-- `fdisk_new_script`。`ok` が偽なら calloc が失敗して NULL を返す。 -/
def fdiskNewScript (ok : Bool) (s : RcState) : Option Nat × RcState :=
  if ok then
    (some s.next, { s with refcount := Function.update s.refcount s.next 1,
                           freed := Function.update s.freed s.next false,
                           content := Function.update s.content s.next Script.fresh,
                           next := s.next + 1 })
  else (none, s)

/-- `fdisk_set_script`：古い script を unref してから、新しい script を置いて ref する。 -/
def fdiskSetScript (s : RcState) (dp : Option Nat) : RcState :=
  fdiskRefScript { fdiskUnrefScript s s.script with script := dp } dp

/-- `fdisk_apply_script_headers` と `fdisk_apply_script` が呼ぶ、`src/` に無い関数の戻り値。 -/
structure ApplyEnv where
  /-- `fdisk_save_user_grain(cxt, sz)`。 -/
  saveUserGrain : Nat → Int
  /-- `fdisk_create_disklabel(cxt, name)`。 -/
  createDisklabel : List Char → Int
  /-- `fdisk_gpt_set_npartitions(cxt, sz)`。 -/
  gptSetNpartitions : Nat → Int
  /-- `fdisk_apply_table(cxt, dp->table)`。 -/
  applyTable : List Partition → Int

/-- `parse_size(str, &sz, NULL)` に続けて `f(sz)` を呼ぶ、という形。 -/
def parseSizeThen (env : Env) (str : List Char) (f : Nat → Int) : Int :=
  match env.parseSize str with
  | .error rc => rc
  | .ok (sz, _) => f sz

/-- `fdisk_apply_script_headers` の、`fdisk_set_script` より後の部分。戻り値だけを決める。 -/
def applyHeadersRc (env : Env) (ae : ApplyEnv) (sc : Script) : Int :=
  let rcGrain := match fdiskScriptGetHeader sc "grain".toList with
    | none => 0
    | some str => parseSizeThen env str ae.saveUserGrain
  if rcGrain ≠ 0 then rcGrain else
  match fdiskScriptGetHeader sc "label".toList with
  | none => -EINVAL
  | some name =>
    let rc := ae.createDisklabel name
    if rc ≠ 0 then rc else
    match fdiskScriptGetHeader sc "table-length".toList with
    | none => rc
    | some str => parseSizeThen env str ae.gptSetNpartitions

/-- `fdisk_apply_script_headers`。 -/
def fdiskApplyScriptHeaders (env : Env) (ae : ApplyEnv) (s : RcState) (dp : Nat) :
    Int × RcState :=
  let s := fdiskSetScript s (some dp)
  (applyHeadersRc env ae (s.content dp), s)

/-- `fdisk_apply_script`：前の script を ref して退避し、最後に戻して unref する。 -/
def fdiskApplyScript (env : Env) (ae : ApplyEnv) (s : RcState) (dp : Nat) : Int × RcState :=
  let old := s.script
  let s₁ := fdiskRefScript s old
  let r := fdiskApplyScriptHeaders env ae s₁ dp
  let rc := match r.1 == 0, (r.2.content dp).table with
    | true, some tb => ae.applyTable tb
    | _, _ => r.1
  (rc, fdiskUnrefScript (fdiskSetScript r.2 old) old)

/-! ## ref と unref が打ち消し合うこと -/

/-- カウントが 1 以上なら、ref の直後の unref は状態を元に戻す。 -/
theorem fdiskUnrefScript_ref (s : RcState) (dp : Option Nat)
    (h : ∀ d, dp = some d → 1 ≤ s.refcount d) :
    fdiskUnrefScript (fdiskRefScript s dp) dp = s := by
  rcases dp with _ | d
  · rfl
  · have hd := h d rfl
    simp only [fdiskRefScript, fdiskUnrefScript, Function.update_same]
    rw [if_neg (by omega)]
    simp [Function.update_idem, Function.update_eq_self]

@[simp] theorem fdiskRefScript_script (s : RcState) (dp : Option Nat) :
    (fdiskRefScript s dp).script = s.script := by
  cases dp <;> rfl

@[simp] theorem fdiskRefScript_refcount (s : RcState) (dp : Option Nat) (i : Nat) :
    (fdiskRefScript s dp).refcount i = s.refcount i + if dp = some i then 1 else 0 := by
  rcases dp with _ | d
  · simp [fdiskRefScript]
  · by_cases h : i = d
    · subst h; simp [fdiskRefScript]
    · simp [fdiskRefScript, Function.update_noteq h, Ne.symm h]

@[simp] theorem fdiskRefScript_freed (s : RcState) (dp : Option Nat) :
    (fdiskRefScript s dp).freed = s.freed := by
  cases dp <;> rfl

@[simp] theorem fdiskRefScript_next (s : RcState) (dp : Option Nat) :
    (fdiskRefScript s dp).next = s.next := by
  cases dp <;> rfl

@[simp] theorem fdiskUnrefScript_script (s : RcState) (dp : Option Nat) :
    (fdiskUnrefScript s dp).script = s.script := by
  rcases dp with _ | d
  · rfl
  · simp only [fdiskUnrefScript]; split <;> rfl

@[simp] theorem fdiskUnrefScript_next (s : RcState) (dp : Option Nat) :
    (fdiskUnrefScript s dp).next = s.next := by
  rcases dp with _ | d
  · rfl
  · simp only [fdiskUnrefScript]; split <;> rfl

@[simp] theorem fdiskUnrefScript_refcount (s : RcState) (dp : Option Nat) (i : Nat) :
    (fdiskUnrefScript s dp).refcount i = s.refcount i - if dp = some i then 1 else 0 := by
  rcases dp with _ | d
  · simp [fdiskUnrefScript]
  · simp only [fdiskUnrefScript]
    by_cases h : i = d
    · subst h; split <;> simp
    · split <;> simp [Function.update_noteq h, Ne.symm h]

@[simp] theorem fdiskUnrefScript_freed (s : RcState) (dp : Option Nat) (i : Nat) :
    (fdiskUnrefScript s dp).freed i =
      (s.freed i || decide (dp = some i ∧ s.refcount i - 1 ≤ 0)) := by
  rcases dp with _ | d
  · simp [fdiskUnrefScript]
  · simp only [fdiskUnrefScript]
    by_cases h : i = d
    · subst h; split <;> simp_all
    · split <;> simp [Function.update_noteq h, Ne.symm h]

/--
**`fdisk_apply_script` は参照カウントと `cxt->script` を元に戻す。**

`dp` と、あれば前の `cxt->script` が生きている（カウントが 1 以上）なら、呼び出しの後の
状態は呼び出しの前と等しい。ref と unref が対になっていて、どれもカウントを 0 にしない
からである。戻り値（`fdisk_apply_script_headers` のどの出口か、外部関数が何を返したか）は
状態に関わらない。前の script が無い場合も、`dp` と同じ場合も含む。
-/
theorem fdiskApplyScript_eq_self (env : Env) (ae : ApplyEnv) (s : RcState) (dp : Nat)
    (hdp : 1 ≤ s.refcount dp) (hold : ∀ o, s.script = some o → 1 ≤ s.refcount o) :
    (fdiskApplyScript env ae s dp).2 = s := by
  have h₁ : fdiskUnrefScript (fdiskRefScript s s.script) s.script = s :=
    fdiskUnrefScript_ref s s.script hold
  have h₂ : fdiskUnrefScript (fdiskRefScript { s with script := some dp } (some dp)) (some dp) =
      { s with script := some dp } :=
    fdiskUnrefScript_ref _ _ (by rintro d ⟨⟩; exact hdp)
  simp only [fdiskApplyScript, fdiskApplyScriptHeaders, fdiskSetScript, fdiskRefScript_script, h₁]
  rw [h₂]
  exact h₁

/-- **`fdisk_apply_script` の後、`cxt->script` と、前の script と `dp` のカウントは元のまま。** -/
theorem apply_script_restores_script (env : Env) (ae : ApplyEnv) (s : RcState) (dp : Nat)
    (hdp : 1 ≤ s.refcount dp) (hold : ∀ o, s.script = some o → 1 ≤ s.refcount o) :
    (fdiskApplyScript env ae s dp).2.script = s.script ∧
      (fdiskApplyScript env ae s dp).2.refcount dp = s.refcount dp ∧
      ∀ o, s.script = some o → (fdiskApplyScript env ae s dp).2.refcount o = s.refcount o := by
  rw [fdiskApplyScript_eq_self env ae s dp hdp hold]
  exact ⟨rfl, rfl, fun _ _ => rfl⟩

/-- 外部関数がすべて失敗を返し、context が別の script を持っている場合。 -/
theorem apply_script_restores_script_sample :
    (1 : Int) ≤ 1 ∧ (∀ o, (some 0 : Option Nat) = some o → (1 : Int) ≤ 1) ∧
      let s : RcState := ⟨fun _ => 1, fun _ => false, fun _ => Script.fresh, 2, some 0⟩
      let ae : ApplyEnv := ⟨fun _ => -EINVAL, fun _ => -EINVAL, fun _ => -EINVAL, fun _ => -EINVAL⟩
      (fdiskApplyScript Env.bare ae s 1).2.script = s.script ∧
        (fdiskApplyScript Env.bare ae s 1).2.refcount 1 = s.refcount 1 ∧
        ∀ o, s.script = some o → (fdiskApplyScript Env.bare ae s 1).2.refcount o = s.refcount o :=
  ⟨le_refl _, fun _ _ => le_refl _,
    apply_script_restores_script Env.bare _ ⟨fun _ => 1, fun _ => false, fun _ => Script.fresh, 2, some 0⟩
      1 (le_refl _) (fun _ _ => le_refl _)⟩

/-! ## client と呼び出しの列 -/

/-- heap と context の状態に、client が持っている参照（重複あり）を足したもの。 -/
structure World where
  st : RcState
  held : List Nat

/-- 何も確保していない状態。 -/
def World.init : World :=
  ⟨⟨fun _ => 0, fun _ => false, fun _ => Script.fresh, 0, none⟩, []⟩

/-- client の呼び出し一つ。 -/
inductive RcCall
  /-- `dp = fdisk_new_script(cxt)`。成功すれば client が参照を一つ持つ。 -/
  | newScript (ok : Bool)
  /-- `fdisk_ref_script(dp)`。client が参照を一つ取る。 -/
  | ref (dp : Nat)
  /-- `fdisk_unref_script(dp)`。client が自分の参照を一つ手放す。 -/
  | unref (dp : Nat)
  | setScript (dp : Option Nat)
  | applyScript (env : Env) (ae : ApplyEnv) (dp : Nat)

/-- 呼び出しを一つ実行する。 -/
def RcCall.step (w : World) : RcCall → World
  | .newScript ok =>
    let r := fdiskNewScript ok w.st
    { st := r.2, held := r.1.toList ++ w.held }
  | .ref dp => { st := fdiskRefScript w.st (some dp), held := dp :: w.held }
  | .unref dp => { st := fdiskUnrefScript w.st (some dp), held := w.held.erase dp }
  | .setScript dp => { w with st := fdiskSetScript w.st dp }
  | .applyScript env ae dp => { w with st := (fdiskApplyScript env ae w.st dp).2 }

/-- client が名指しできる script：自分の参照か、`fdisk_get_script` が返す `cxt->script`。 -/
def World.names (w : World) (dp : Nat) : Bool := dp ∈ w.held || w.st.script == some dp

/--
呼び出し側の決まり：`fdisk_unref_script` に渡すのは自分が取った参照だけ、他の呼び出しに渡すのは
名指しできる script だけ。
-/
def RcCall.allowed (w : World) : RcCall → Bool
  | .newScript _ => true
  | .ref dp => w.names dp
  | .unref dp => dp ∈ w.held
  | .setScript none => true
  | .setScript (some dp) => w.names dp
  | .applyScript _ _ dp => w.names dp

/-- 呼び出しの列を実行する。 -/
def runRc (w : World) : List RcCall → World
  | [] => w
  | c :: cs => runRc (c.step w) cs

/-- 列のどの呼び出しも、その時点の状態で前提に従う。 -/
def allowedRun (w : World) : List RcCall → Bool
  | [] => true
  | c :: cs => c.allowed w && allowedRun (c.step w) cs

/-- script `i` を持っている者の数：client の参照と、`cxt->script` なら context。 -/
def holders (w : World) (i : Nat) : Nat :=
  w.held.count i + if w.st.script = some i then 1 else 0

/--
参照カウントの不変条件：持ち主の数はカウント以下で、持ち主のいる script は解放されていない。
まだ確保されていない番号には持ち主がいない。
-/
def RcInv (w : World) : Prop :=
  ∀ i, (holders w i : Int) ≤ w.st.refcount i ∧ (0 < holders w i → w.st.freed i = false) ∧
    (w.st.next ≤ i → holders w i = 0)

theorem rcInv_init : RcInv World.init := by
  intro i; simp [holders, World.init]

/--
**`fdisk_set_script(cxt, cxt->script)` が script を解放する。**

client が script を作って context に渡し、自分の参照を手放すと、参照は context の一つだけになる。
そこで `fdisk_get_script` で得た同じ script をもう一度 `fdisk_set_script` に渡すと、unref が
カウントを 0 にして解放し、その後で解放済みの script を `cxt->script` に置いて ref する。
どの呼び出しも呼び出し側の決まり（`RcCall.allowed`：unref は自分の参照だけ）に従っている。
-/
theorem set_script_self_frees :
    RcInv World.init ∧
      allowedRun World.init
        [.newScript true, .setScript (some 0), .unref 0, .setScript (some 0)] = true ∧
      (runRc World.init
        [.newScript true, .setScript (some 0), .unref 0, .setScript (some 0)]).st.script = some 0 ∧
      (runRc World.init
        [.newScript true, .setScript (some 0), .unref 0, .setScript (some 0)]).st.freed 0 = true ∧
      ¬ RcInv (runRc World.init
        [.newScript true, .setScript (some 0), .unref 0, .setScript (some 0)]) := by
  refine ⟨rcInv_init, rfl, rfl, rfl, fun h => ?_⟩
  have := (h 0).2.1
  simp [holders] at this
  exact absurd (this (by decide)) (by decide)

/-! ## 自分の script を置き直さない限り不変条件は保たれる -/

/-- `fdisk_set_script(cxt, dp)` で、`dp` が今の `cxt->script` で、そのカウントがちょうど 1。 -/
def RcCall.selfSetSole (w : World) : RcCall → Bool
  | .setScript (some dp) => w.st.script == some dp && w.st.refcount dp == 1
  | _ => false

theorem names_holders {w : World} {dp : Nat} (h : w.names dp = true) : 0 < holders w dp := by
  unfold World.names at h
  unfold holders
  rcases Bool.or_eq_true_iff.mp h with h | h
  · have := List.count_pos_iff.mpr (by simpa using h); omega
  · simp at h; simp [h]

theorem rcInv_ref {w : World} {dp : Nat} (hi : RcInv w) (hn : w.names dp = true) :
    RcInv ((RcCall.ref dp).step w) := by
  have hp := names_holders hn
  have hf := (hi dp).2.1 hp
  intro i
  obtain ⟨h1, h2, h3⟩ := hi i
  simp only [RcCall.step, holders, fdiskRefScript_refcount, fdiskRefScript_freed,
    fdiskRefScript_script, fdiskRefScript_next, List.count_cons] at *
  by_cases h : i = dp
  · subst h; simp only [beq_self_eq_true, if_true, Option.some.injEq, true_and] at *
    refine ⟨by omega, fun _ => hf, fun hle => by have := h3 hle; omega⟩
  · have h' : ¬ dp = i := Ne.symm h
    simp only [h', beq_iff_eq, if_false, Option.some.injEq, Nat.add_zero, Int.add_zero] at *
    exact ⟨h1, h2, h3⟩

theorem rcInv_unref {w : World} {dp : Nat} (hi : RcInv w) (hm : dp ∈ w.held) :
    RcInv ((RcCall.unref dp).step w) := by
  have hp : 0 < holders w dp := names_holders (by simp [World.names, hm])
  have hc : 0 < w.held.count dp := List.count_pos_iff.mpr hm
  have hf := (hi dp).2.1 hp
  intro i
  obtain ⟨h1, h2, h3⟩ := hi i
  simp only [RcCall.step, holders, fdiskUnrefScript_refcount, fdiskUnrefScript_freed,
    fdiskUnrefScript_script, fdiskUnrefScript_next] at *
  by_cases h : i = dp
  · subst h
    simp only [List.count_erase_self, if_true, true_and, Bool.or_eq_false_iff,
      decide_eq_false_iff_not] at *
    refine ⟨by omega, fun hpos => ⟨hf, by omega⟩, fun hle => by have := h3 hle; omega⟩
  · have h' : ¬ some dp = some i := fun e => h (Option.some.inj e).symm
    simp only [List.count_erase_of_ne h, h', if_false, false_and, decide_False, Bool.or_false,
      Int.sub_zero] at *
    exact ⟨h1, h2, h3⟩

theorem rcInv_newScript {w : World} (hi : RcInv w) (ok : Bool) :
    RcInv ((RcCall.newScript ok).step w) := by
  cases ok
  · simpa [RcCall.step, fdiskNewScript] using hi
  · have h0 := (hi w.st.next).2.2 (le_refl _)
    intro i
    obtain ⟨h1, h2, h3⟩ := hi i
    simp only [RcCall.step, fdiskNewScript, if_true, holders, Option.toList_some,
      List.singleton_append, List.count_cons] at *
    by_cases h : i = w.st.next
    · subst h
      simp only [Function.update_same, beq_self_eq_true, if_true] at *
      exact ⟨by omega, fun _ => trivial, fun hle => by omega⟩
    · have h' : ¬ (w.st.next == i) = true := by simpa using Ne.symm h
      simp only [Function.update_noteq h, h', if_false, Nat.add_zero] at *
      exact ⟨h1, h2, fun hle => h3 (by omega)⟩

theorem rcInv_setScript {w : World} {dp : Option Nat} (hi : RcInv w)
    (ha : (RcCall.setScript dp).allowed w = true)
    (hs : (RcCall.setScript dp).selfSetSole w = false) :
    RcInv ((RcCall.setScript dp).step w) := by
  have hn : ∀ i, dp = some i → 0 < holders w i := by
    rintro i rfl; exact names_holders ha
  have hsole : ∀ i, dp = some i → w.st.script = some i → w.st.refcount i ≠ 1 := by
    rintro i rfl hsc h1
    simp [RcCall.selfSetSole, hsc, h1] at hs
  intro i
  obtain ⟨h1, h2, h3⟩ := hi i
  have hni := hn i
  have hsi := hsole i
  simp only [RcCall.step, fdiskSetScript, holders, fdiskRefScript_refcount, fdiskRefScript_freed,
    fdiskRefScript_script, fdiskRefScript_next, fdiskUnrefScript_refcount,
    fdiskUnrefScript_freed, fdiskUnrefScript_script, fdiskUnrefScript_next] at *
  by_cases hsc : w.st.script = some i <;> by_cases hd : dp = some i <;>
    simp only [hsc, hd, if_true, if_false, true_and, false_and, decide_False, Bool.or_false,
      Bool.or_eq_false_iff, decide_eq_false_iff_not, forall_const] at *
  · exact ⟨by omega, fun _ => ⟨h2 (by omega), by omega⟩, fun hle => by omega⟩
  · exact ⟨by omega, fun hp => ⟨h2 (by omega), by omega⟩, fun hle => by omega⟩
  · exact ⟨by omega, fun _ => h2 (by omega), fun hle => by omega⟩
  · exact ⟨by omega, h2, h3⟩

theorem rcInv_applyScript {w : World} {env : Env} {ae : ApplyEnv} {dp : Nat} (hi : RcInv w)
    (ha : (RcCall.applyScript env ae dp).allowed w = true) :
    RcInv ((RcCall.applyScript env ae dp).step w) := by
  have hdp : 1 ≤ w.st.refcount dp := by
    have := (hi dp).1; have := names_holders ha; omega
  have hold : ∀ o, w.st.script = some o → 1 ≤ w.st.refcount o := by
    intro o ho
    have := (hi o).1
    simp only [holders, ho, if_true] at this
    omega
  simpa [RcCall.step, fdiskApplyScript_eq_self env ae w.st dp hdp hold] using hi

/-- 前提に従い、自分の script を置き直さない呼び出しは不変条件を保つ。 -/
theorem RcCall.step_inv (c : RcCall) {w : World} (hi : RcInv w) (ha : c.allowed w = true)
    (hs : c.selfSetSole w = false) : RcInv (c.step w) := by
  cases c with
  | newScript ok => exact rcInv_newScript hi ok
  | ref dp => exact rcInv_ref hi ha
  | unref dp => exact rcInv_unref hi (by simpa [RcCall.allowed] using ha)
  | setScript dp => exact rcInv_setScript hi ha hs
  | applyScript env ae dp => exact rcInv_applyScript hi ha

/-- 列のどの呼び出しも前提に従い、context だけが持つ自分の script を置き直さない。 -/
def safeRun (w : World) : List RcCall → Bool
  | [] => true
  | c :: cs => c.allowed w && !c.selfSetSole w && safeRun (c.step w) cs

theorem runRc_inv (calls : List RcCall) {w : World} (hi : RcInv w)
    (hs : safeRun w calls = true) : RcInv (runRc w calls) := by
  induction calls generalizing w with
  | nil => exact hi
  | cons c cs ih =>
    simp only [safeRun, Bool.and_eq_true, Bool.not_eq_true'] at hs
    exact ih (c.step_inv hi hs.1.1 hs.1.2) hs.2

/--
**参照カウントの不変条件は、`fdisk_set_script(cxt, cxt->script)` を context の参照が唯一の
ときに呼ばない限り保たれる。**

何も確保していない状態から、`set_script_self_frees` の一つの形を除くどんな呼び出しの列
（`fdisk_apply_script` を含む）の後でも、持ち主のいる script のカウントは持ち主の数以上で、
解放されていない。
-/
theorem refcount_invariant_of_safeRun (calls : List RcCall)
    (h : safeRun World.init calls = true) : RcInv (runRc World.init calls) :=
  runRc_inv calls rcInv_init h

/-- 自分の script を、client の参照が残っているうちに置き直す列。 -/
theorem refcount_invariant_of_safeRun_sample :
    safeRun World.init [.newScript true, .setScript (some 0), .setScript (some 0), .unref 0,
      .setScript none] = true ∧
      RcInv (runRc World.init [.newScript true, .setScript (some 0), .setScript (some 0),
        .unref 0, .setScript none]) :=
  ⟨rfl, refcount_invariant_of_safeRun _ rfl⟩

end Fdisk
