import Mathlib.Logic.Function.Basic

/-!
# カーネルのコマンドラインの `dpi`、`dpi_force`、`backlight`

`cmdline_dpi`、`cmdline_dpi_force`、`cmdline_backlight` を写す。どれもコマンドラインの値を
confd の `runtime.cmdline.*` に入れる。`dpi` と `dpi_force` は同じ形の関数で、`parse_int` で読んだ
値が 0 から 1000 でなければ警告を出すだけで何も入れない。警告の `trlog_warn(0, ...)` は 0 を
返すので、三つともいつも 0 を返す。

confd の store は path から値への写像で、`confd_set_integer` と `confd_set_string` は path の値を
置き換える。`parse_int` は `src/` に無いので引数で与える。

## 主な定理

* `cmdlineRange_rejected`、`cmdlineRange_accepted` — 範囲の外の値は store を変えずに警告だけを出し、
  範囲の中の値はその path だけを変える
* `cmdline_dpi_in_range` — どんな値でどんな順に呼んでも、dpi の二つの path に入っている整数は
  0 から 1000 のままで、範囲の外の値は警告を一つ出すだけ
-/

namespace Cmdline

/-- confd の値（`TYPE_INTEGER`、`TYPE_STRING`）。 -/
inductive ConfVal
  | integer (n : Int)
  | string (s : List Char)
deriving DecidableEq, Repr

/-- `confd_set_integer(path, v)`、`confd_set_string(path, v)`：path の値を置き換える。 -/
def confdSet (st : List Char → Option ConfVal) (path : List Char) (v : ConfVal) :
    List Char → Option ConfVal :=
  Function.update st path (some v)

/-- `trlog_warn` の一行：書式と `%s` の文字列。 -/
structure Warning where
  fmt : String
  arg : List Char
deriving DecidableEq, Repr

/-- 呼び出しの結果：戻り値、store、出した警告。 -/
abbrev Result := Int × (List Char → Option ConfVal) × List Warning

/--
`cmdline_dpi` と `cmdline_dpi_force` の形：`r = parse_int(v, 0)` が 0 から 1000 なら `path` に入れ、
そうでなければ `fmt` で警告する。どちらでも 0 を返す。
-/
def cmdlineRange (path : List Char) (fmt : String) (parseInt : List Char → Int → Int) (v : List Char)
    (st : List Char → Option ConfVal) : Result :=
  let r := parseInt v 0
  if r < 0 ∨ r > 1000 then (0, st, [⟨fmt, v⟩])
  else (0, confdSet st path (.integer r), [])

def dpiPath : List Char := "runtime.cmdline.dpi".toList
def dpiForcePath : List Char := "runtime.cmdline.dpi_force".toList
def backlightPath : List Char := "runtime.cmdline.backlight".toList

/-- `cmdline_dpi(k, v)`。 -/
def cmdlineDpi (parseInt : List Char → Int → Int) (v : List Char) (st : List Char → Option ConfVal) : Result :=
  cmdlineRange dpiPath "invalid dpi '%s'" parseInt v st

/-- `cmdline_dpi_force(k, v)`。 -/
def cmdlineDpiForce (parseInt : List Char → Int → Int) (v : List Char) (st : List Char → Option ConfVal) :
    Result :=
  cmdlineRange dpiForcePath "invalid dpi_force '%s'" parseInt v st

/-- `cmdline_backlight(k, v)`：値を調べずに文字列のまま入れる。 -/
def cmdlineBacklight (v : List Char) (st : List Char → Option ConfVal) : Result :=
  (0, confdSet st backlightPath (.string v), [])

/-- 範囲の外の値は store を変えず、値を書いた警告を一つ出す。 -/
theorem cmdlineRange_rejected {path : List Char} {fmt : String} {parseInt : List Char → Int → Int}
    {v : List Char} (h : parseInt v 0 < 0 ∨ parseInt v 0 > 1000) (st : List Char → Option ConfVal) :
    cmdlineRange path fmt parseInt v st = (0, st, [⟨fmt, v⟩]) :=
  if_pos h

/-- 範囲の中の値は `path` の値だけを変え、警告を出さない。 -/
theorem cmdlineRange_accepted {path : List Char} {fmt : String} {parseInt : List Char → Int → Int}
    {v : List Char} (h : 0 ≤ parseInt v 0 ∧ parseInt v 0 ≤ 1000) (st : List Char → Option ConfVal) :
    cmdlineRange path fmt parseInt v st = (0, confdSet st path (.integer (parseInt v 0)), []) :=
  if_neg (by omega)

/-- 範囲の中でも外でも 0 を返す（`trlog_warn(0, ...)` は 0 を返す）。 -/
theorem cmdlineRange_fst (path : List Char) (fmt : String) (parseInt : List Char → Int → Int)
    (v : List Char) (st : List Char → Option ConfVal) : (cmdlineRange path fmt parseInt v st).1 = 0 := by
  unfold cmdlineRange; dsimp only; split <;> rfl

/-! ## 呼び出しの列 -/

/-- コマンドラインの項目の呼び出し。 -/
inductive Call
  | dpi (v : List Char)
  | dpiForce (v : List Char)
  | backlight (v : List Char)
deriving DecidableEq, Repr

/-- 呼び出しを一つ実行する。 -/
def Call.run (parseInt : List Char → Int → Int) (st : List Char → Option ConfVal) : Call → Result
  | .dpi v => cmdlineDpi parseInt v st
  | .dpiForce v => cmdlineDpiForce parseInt v st
  | .backlight v => cmdlineBacklight v st

/-- 呼び出しを順に実行した後の store。 -/
def runCalls (parseInt : List Char → Int → Int) (st : List Char → Option ConfVal) : List Call →
    List Char → Option ConfVal
  | [] => st
  | c :: cs => runCalls parseInt (c.run parseInt st).2.1 cs

/-- dpi の二つの path に入っている整数は、どれも 0 から 1000。 -/
def DpiInRange (st : List Char → Option ConfVal) : Prop :=
  ∀ path ∈ [dpiPath, dpiForcePath], ∀ n, st path = some (.integer n) → 0 ≤ n ∧ n ≤ 1000

theorem dpiInRange_confdSet_other {st : List Char → Option ConfVal} (h : DpiInRange st) {path : List Char}
    (hp : path ∉ [dpiPath, dpiForcePath]) (v : ConfVal) : DpiInRange (confdSet st path v) := by
  intro q hq n hn
  rw [confdSet, Function.update_noteq (fun (e : q = path) => hp (e ▸ hq))] at hn
  exact h q hq n hn

theorem dpiInRange_cmdlineRange {st : List Char → Option ConfVal} (h : DpiInRange st) {path : List Char}
    (fmt : String) (parseInt : List Char → Int → Int) (v : List Char) :
    DpiInRange (cmdlineRange path fmt parseInt v st).2.1 := by
  by_cases hr : parseInt v 0 < 0 ∨ parseInt v 0 > 1000
  · rw [cmdlineRange_rejected hr]; exact h
  · rw [cmdlineRange_accepted (by omega)]
    intro q hq n hn
    dsimp only at hn
    by_cases e : q = path
    · subst e
      rw [confdSet, Function.update_same] at hn
      cases hn
      omega
    · rw [confdSet, Function.update_noteq e] at hn
      exact h q hq n hn

/-- 一つの呼び出しは、dpi の二つの path の範囲を保つ。 -/
theorem Call.run_inRange (parseInt : List Char → Int → Int) {st : List Char → Option ConfVal}
    (h : DpiInRange st) : ∀ c : Call, DpiInRange (c.run parseInt st).2.1
  | .dpi v => dpiInRange_cmdlineRange h _ parseInt v
  | .dpiForce v => dpiInRange_cmdlineRange h _ parseInt v
  | .backlight v => dpiInRange_confdSet_other h (by decide) _

/--
**dpi の値はいつも 0 から 1000。**

`runtime.cmdline.dpi` と `runtime.cmdline.dpi_force` に 0 から 1000 の整数しか無い store から
始めれば、`parse_int` が何を返しても、どの項目をどんな値でどんな順に呼んでも、その二つの
path に入っている整数は 0 から 1000 のまま。どの呼び出しも 0 を返す。範囲の外の値で呼んだ
`dpi` と `dpi_force` は store を変えず、その値を書いた `invalid dpi` か `invalid dpi_force` の
警告を一つだけ出す。
-/
theorem cmdline_dpi_in_range (parseInt : List Char → Int → Int) (st : List Char → Option ConfVal)
    (h : DpiInRange st) (cs : List Call) :
    DpiInRange (runCalls parseInt st cs) ∧ (∀ c ∈ cs, ∀ st', (c.run parseInt st').1 = 0) ∧
      ∀ v st', (parseInt v 0 < 0 ∨ parseInt v 0 > 1000) →
        (Call.dpi v).run parseInt st' = (0, st', [⟨"invalid dpi '%s'", v⟩]) ∧
          (Call.dpiForce v).run parseInt st' = (0, st', [⟨"invalid dpi_force '%s'", v⟩]) := by
  refine ⟨?_, fun c _ st' => ?_, fun v st' hr => ⟨cmdlineRange_rejected hr st', cmdlineRange_rejected hr st'⟩⟩
  · induction cs generalizing st with
    | nil => exact h
    | cons c cs ih => exact ih _ (Call.run_inRange parseInt h c)
  · cases c <;> first | rfl | exact cmdlineRange_fst ..

/-- 十進の数字だけの値を読み、それ以外は既定値を返す `parse_int`。 -/
def decimalParseInt (s : List Char) (d : Int) : Int :=
  if s ≠ [] ∧ s.all Char.isDigit then (s.foldl (fun n c => 10 * n + (c.toNat - 48)) 0 : Nat) else d

theorem cmdline_dpi_in_range_sample :
    DpiInRange (fun _ => none) ∧
      DpiInRange (runCalls decimalParseInt (fun _ => none)
        [.dpi "96".toList, .dpiForce "4000".toList, .backlight "50".toList, .dpi "x".toList]) ∧
      (∀ c ∈ [Call.dpi "96".toList, .dpiForce "4000".toList, .backlight "50".toList, .dpi "x".toList],
        ∀ st', (c.run decimalParseInt st').1 = 0) ∧
      ∀ v st', (decimalParseInt v 0 < 0 ∨ decimalParseInt v 0 > 1000) →
        (Call.dpi v).run decimalParseInt st' = (0, st', [⟨"invalid dpi '%s'", v⟩]) ∧
          (Call.dpiForce v).run decimalParseInt st' = (0, st', [⟨"invalid dpi_force '%s'", v⟩]) := by
  have h₀ : DpiInRange (fun _ => none) := fun _ _ _ h => Option.noConfusion h
  exact ⟨h₀, cmdline_dpi_in_range decimalParseInt _ h₀ _⟩

end Cmdline
