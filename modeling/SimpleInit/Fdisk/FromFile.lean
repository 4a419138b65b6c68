import SimpleInit.Fdisk.Refcount
import SimpleInit.Fdisk.Read

/-!
# `fdisk_new_script_from_file`

`fdisk_new_script_from_file` は `fopen`、`fdisk_new_script`、`fdisk_script_read_file` を順に呼び、
どこかで失敗すれば `done:` で作った script を `fdisk_unref_script` に渡して `NULL` を返す。
これを `Refcount.lean` の script の heap の上に写す。`fopen` の成否と開いた stream、`calloc` の
成否は入力で与え、`errno` は写さない。

## 鍵になる並び

どの出口も三つの形のどれかになる（`fdiskNewScriptFromFile_eq`）：何も確保しない、確保して
読んだ script を返す、確保して読んだ script を unref して解放する。後の二つは `fdisk_new_script`
の一歩に script の中身の書き換えを足したもので、`RcInv` は中身を見ないので
（`rcInv_content`）、`Refcount.lean` の一歩ごとの補題がそのまま使える。

## 主な定理

* `new_script_from_file_no_leak` — `RcInv` を保ち、script を返すのは三つの呼び出しがどれも
  成功したときだけで、返す script は参照が一つでファイルから読んだ中身を持ち、返さなかった
  script はどれも解放されている
-/

namespace Fdisk

/--
`fdisk_new_script_from_file(cxt, filename)`：`opened` が偽なら `fopen` が失敗し、真なら `f` を
開く。`ok` は `calloc` の成否。
-/
def fdiskNewScriptFromFile (env : Env) (opened ok : Bool) (f : Stream) (s : RcState) :
    Option Nat × RcState :=
  if opened then
    match fdiskNewScript ok s with
    | (none, s) => (none, fdiskUnrefScript s none)
    | (some dp, s) =>
      let r := fdiskScriptReadFile env (s.content dp) f
      let s := { s with content := Function.update s.content dp r.2 }
      if r.1 ≠ 0 then (none, fdiskUnrefScript s (some dp)) else (some dp, s)
  else (none, s)

/-- client が `fdisk_new_script_from_file` を呼ぶ：返った script の参照は client が持つ。 -/
def World.newScriptFromFile (env : Env) (opened ok : Bool) (f : Stream) (w : World) : World :=
  let r := fdiskNewScriptFromFile env opened ok f w.st
  { st := r.2, held := r.1.toList ++ w.held }

/-- `calloc` が成功し、`fdisk_script_read_file` が新しい script に読んだ後の heap。 -/
def loadedState (env : Env) (f : Stream) (s : RcState) : RcState :=
  { (fdiskNewScript true s).2 with
    content := Function.update (fdiskNewScript true s).2.content s.next (fdiskScriptReadFile env Script.fresh f).2 }

/-- **出口は三つ。** -/
theorem fdiskNewScriptFromFile_eq (env : Env) (opened ok : Bool) (f : Stream) (s : RcState) :
    fdiskNewScriptFromFile env opened ok f s =
      if opened ∧ ok then
        if (fdiskScriptReadFile env Script.fresh f).1 ≠ 0 then
          (none, fdiskUnrefScript (loadedState env f s) (some s.next))
        else (some s.next, loadedState env f s)
      else (none, s) := by
  cases opened <;> cases ok <;> simp [fdiskNewScriptFromFile, fdiskNewScript, loadedState, fdiskUnrefScript]

@[simp] theorem loadedState_next (env : Env) (f : Stream) (s : RcState) :
    (loadedState env f s).next = s.next + 1 := rfl

@[simp] theorem loadedState_refcount_next (env : Env) (f : Stream) (s : RcState) :
    (loadedState env f s).refcount s.next = 1 := by
  simp [loadedState, fdiskNewScript]

@[simp] theorem loadedState_content_next (env : Env) (f : Stream) (s : RcState) :
    (loadedState env f s).content s.next = (fdiskScriptReadFile env Script.fresh f).2 := by
  simp [loadedState]

/-- `RcInv` は script の中身を見ない。 -/
theorem rcInv_content {w : World} (h : RcInv w) (c : Nat → Script) :
    RcInv ⟨{ w.st with content := c }, w.held⟩ :=
  h

/-- 確保して読んだ script を client が持つ状態は `RcInv` を満たす。 -/
theorem rcInv_loaded (env : Env) (f : Stream) {w : World} (hi : RcInv w) :
    RcInv ⟨loadedState env f w.st, w.st.next :: w.held⟩ :=
  rcInv_content (rcInv_newScript hi true) _

/--
**`fdisk_new_script_from_file` は script を漏らさない。**

参照カウントの不変条件 `RcInv` の下で呼ぶと、

* 呼んだ後も `RcInv` が成り立つ（返った参照は client が持つ）。
* script を返すのは `fopen`、`calloc`、`fdisk_script_read_file` がどれも成功したときだけで、
  返すのは新しく確保した番号。
* 返した script は参照がちょうど一つで、中身は空の script にファイルを読んだもの。
* この呼び出しで確保した script は、返したものでなければ解放されている。
-/
theorem new_script_from_file_no_leak (env : Env) (opened ok : Bool) (f : Stream) (w : World)
    (hi : RcInv w) :
    RcInv (w.newScriptFromFile env opened ok f) ∧
      (fdiskNewScriptFromFile env opened ok f w.st).1 =
        (if opened ∧ ok ∧ (fdiskScriptReadFile env Script.fresh f).1 = 0 then some w.st.next else none) ∧
      (∀ dp ∈ (fdiskNewScriptFromFile env opened ok f w.st).1,
        (fdiskNewScriptFromFile env opened ok f w.st).2.content dp = (fdiskScriptReadFile env Script.fresh f).2 ∧
          (fdiskNewScriptFromFile env opened ok f w.st).2.refcount dp = 1) ∧
      ∀ i, w.st.next ≤ i → i < (fdiskNewScriptFromFile env opened ok f w.st).2.next →
        (fdiskNewScriptFromFile env opened ok f w.st).1 = some i ∨
          (fdiskNewScriptFromFile env opened ok f w.st).2.freed i = true := by
  unfold World.newScriptFromFile
  rw [fdiskNewScriptFromFile_eq]
  by_cases ho : opened ∧ ok
  · obtain ⟨rfl, rfl⟩ := ho
    by_cases hr : (fdiskScriptReadFile env Script.fresh f).1 = 0
    · simp only [and_self, true_and, if_true, hr, ne_eq, not_true_eq_false, if_false]
      refine ⟨rcInv_loaded env f hi, by simp, fun i h₁ h₂ => .inl ?_⟩
      rw [loadedState_next] at h₂
      exact congrArg some (by omega)
    · have hu := rcInv_unref (rcInv_loaded env f hi) (List.mem_cons_self _ _)
      simp only [RcCall.step, List.erase_cons_head] at hu
      simp only [and_self, true_and, if_true, hr, ne_eq, not_false_eq_true, if_false]
      refine ⟨hu, by simp, fun i h₁ h₂ => .inr ?_⟩
      rw [fdiskUnrefScript_next, loadedState_next] at h₂
      obtain rfl : i = w.st.next := by omega
      simp
  · rw [if_neg ho, if_neg fun h => ho ⟨h.1, h.2.1⟩]
    exact ⟨hi, rfl, by simp, fun i h₁ h₂ => absurd h₂ (Nat.not_lt.2 h₁)⟩

/-- 何も確保していない状態から、`label: gpt` の一行を読む。 -/
theorem new_script_from_file_no_leak_sample :
    RcInv World.init ∧
      RcInv (World.init.newScriptFromFile Env.bare true true (Stream.ofText "label: gpt\n".toList)) ∧
      (fdiskNewScriptFromFile Env.bare true true (Stream.ofText "label: gpt\n".toList) World.init.st).1 =
        (if true ∧ true ∧ (fdiskScriptReadFile Env.bare Script.fresh (Stream.ofText "label: gpt\n".toList)).1 = 0
          then some World.init.st.next else none) ∧
      (∀ dp ∈ (fdiskNewScriptFromFile Env.bare true true (Stream.ofText "label: gpt\n".toList) World.init.st).1,
        (fdiskNewScriptFromFile Env.bare true true (Stream.ofText "label: gpt\n".toList) World.init.st).2.content dp =
            (fdiskScriptReadFile Env.bare Script.fresh (Stream.ofText "label: gpt\n".toList)).2 ∧
          (fdiskNewScriptFromFile Env.bare true true (Stream.ofText "label: gpt\n".toList) World.init.st).2.refcount dp = 1) ∧
      ∀ i, World.init.st.next ≤ i →
        i < (fdiskNewScriptFromFile Env.bare true true (Stream.ofText "label: gpt\n".toList) World.init.st).2.next →
        (fdiskNewScriptFromFile Env.bare true true (Stream.ofText "label: gpt\n".toList) World.init.st).1 = some i ∨
          (fdiskNewScriptFromFile Env.bare true true (Stream.ofText "label: gpt\n".toList) World.init.st).2.freed i = true :=
  ⟨rcInv_init, new_script_from_file_no_leak Env.bare true true _ World.init rcInv_init⟩

end Fdisk
