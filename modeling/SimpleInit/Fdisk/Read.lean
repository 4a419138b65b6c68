import SimpleInit.Fdisk.Parse

/-!
# script のファイルを読む

`fdisk_script_read_file` と `fdisk_script_read_line` を、`fgets` の振る舞いと一緒に写す。

* `Stream` — `FILE *` のうち `fgets` と `feof` が見るもの
* `fgets` — 改行まで（高々 `n - 1` 文字）を読んで NUL を書く。NUL の後ろは前の内容のまま
* `fdiskScriptReadLine` — 空行とコメント行を飛ばし、次の行を `fdisk_script_read_buffer` に渡す
* `fdiskScriptReadFile` — `BUFSIZ` の行バッファで、EOF か -ENOTSUP 以外の失敗まで読む

`fn_fgets` の callback は写さず、`fgets` を使う場合だけを扱う。`read_line` の `do … while` は
一周ごとに入力を一文字以上読むので、残りの入力の長さ + 1 回で止まる。その回数を fuel とする。

行バッファ `buf[BUFSIZ] = { '\0' }` は、これまでに書かれた先頭の部分だけを列に持つ。
その先はずっと NUL のままで、`peek` は列の外を NUL と読むので、これで中身がちょうど表せる。
`fgets` の書き込みは列を延ばし、parser が書くのは NUL か行の中だけである。

## 主な定理

* `fgets_rest_lt` — `fgets` が読めたら残りの入力は短くなる
* `readLine_fuel`、`readFileLoop_fuel` — 残りの入力の長さより多い fuel なら、`read_line` と
  `read_file` のループの結果は fuel によらない。どちらも与えた fuel の中で止まる
* `read_file_final_newline` — 最後の行の改行の有無で `read_file` の戻り値が変わる
* `valcommas_reads_past_nul` — valcommas の行は NUL の次の byte を読み、改行の無い最後の行では
  それが前の行の残りになる
-/

namespace Fdisk

/-- glibc の `BUFSIZ`。`fdisk_script_read_file` の行バッファの大きさ。 -/
def BUFSIZ : Nat := 8192

/-- `FILE *` のうち `fgets` と `feof` が見るもの：まだ読んでいない入力と EOF の印。 -/
structure Stream where
  rest : List Char
  eof : Bool
deriving DecidableEq, Repr

/-- `fgets` が一度に取る文字：高々 `k` 文字、改行があればそこまで（改行を含む）。 -/
def fgetsTake : Nat → List Char → List Char
  | 0, _ => []
  | _, [] => []
  | k + 1, c :: cs => if c = '\n' then [c] else c :: fgetsTake k cs

/-- `fgets` が書いた後のバッファ：先頭に `line` と NUL、その後ろは前の内容のまま。 -/
def fgetsStore (b line : List Char) : List Char := line ++ '\x00' :: b.drop (line.length + 1)

/--
`fgets(buf, n, f)`。入力が尽きていれば NULL（`none`）で EOF の印が立つ。読めたら取った文字と
NUL をバッファの先頭に書く。改行でも `n - 1` 文字でも止まらなかったなら、入力の終わりに
当たったので EOF の印が立つ。
-/
def fgets (b : List Char) (n : Nat) (f : Stream) : Option (List Char) × Stream :=
  if f.rest = [] then (none, { f with eof := true })
  else
    let line := fgetsTake (n - 1) f.rest
    let atEnd := line.getLast? ≠ some '\n' ∧ line.length < n - 1
    (some (fgetsStore b line), ⟨f.rest.drop line.length, f.eof || decide atEnd⟩)

/-- `strchr(buf, '\n')`、それが無く EOF なら `strchr(buf, '\0')`。どちらも無ければ `none`。 -/
def lineEnd (b : List Char) (eof : Bool) : Option Nat :=
  match strchrAt b 0 '\n' with
  | some s => some s
  | none => if eof then some (cstr b 0).length else none

/-- `*s = '\0'; if (--s >= buf && *s == '\r') *s = '\0';`。 -/
def chompLine (b : List Char) (s : Nat) : List Char :=
  let b := poke b s '\x00'
  if 0 < s ∧ peek b (s - 1) = '\r' then poke b (s - 1) '\x00' else b

/--
`fdisk_script_read_line(dp, f, buf, bufsz)`：戻り値、script、stream、バッファ。
fuel が尽きたら入力の終わりと同じく 1。
-/
def fdiskScriptReadLine (env : Env) (bufsz : Nat) :
    Nat → Script → Stream → List Char → Int × Script × Stream × List Char
  | 0, dp, f, b => (1, dp, f, b)
  | fuel + 1, dp, f, b =>
    let b := poke b 0 '\x00'
    match fgets b bufsz f with
    | (none, f) => (1, dp, f, b)
    | (some b, f) =>
      let dp := { dp with nlines := dp.nlines + 1 }
      match lineEnd b f.eof with
      | none => (-EINVAL, dp, f, b)
      | some e =>
        let b := chompLine b e
        let s := skipBlank b 0
        if peek b s = '\x00' ∨ peek b s = '#' then fdiskScriptReadLine env bufsz fuel dp f b
        else
          let r := fdiskScriptReadBuffer env dp b s
          (r.1, r.2.1, f, r.2.2)

/-- `fdisk_script_read_file` の `while (!feof(f))` のループ。 -/
def readFileLoop (env : Env) : Nat → Int → Script → Stream → List Char → Int × Script
  | 0, rc, dp, _, _ => (rc, dp)
  | fuel + 1, rc, dp, f, b =>
    if f.eof then (rc, dp)
    else
      let r := fdiskScriptReadLine env BUFSIZ (f.rest.length + 1) dp f b
      if r.1 ≠ 0 ∧ r.1 ≠ -ENOTSUP then (r.1, r.2.1)
      else readFileLoop env fuel r.1 r.2.1 r.2.2.1 r.2.2.2

/-- `fdisk_script_read_file(dp, f)`。行バッファは NUL だけで始まる（書かれた部分は空）。 -/
def fdiskScriptReadFile (env : Env) (dp : Script) (f : Stream) : Int × Script :=
  let r := readFileLoop env (f.rest.length + 2) 1 dp f []
  (if r.1 = 1 then 0 else r.1, r.2)

/-- 読み始めの stream。 -/
def Stream.ofText (t : List Char) : Stream := ⟨t, false⟩

/-! ## `fgets` の進み方と fuel -/

theorem fgetsTake_length_le : ∀ (k : Nat) (cs : List Char),
    (fgetsTake k cs).length ≤ min k cs.length
  | 0, _ => by simp [fgetsTake]
  | _ + 1, [] => by simp [fgetsTake]
  | k + 1, c :: cs => by
    have := fgetsTake_length_le k cs
    unfold fgetsTake
    split <;> simp only [List.length_cons, List.length_nil] <;> omega

theorem fgetsTake_length_pos {k : Nat} {cs : List Char} (hk : 0 < k) (hc : cs ≠ []) :
    0 < (fgetsTake k cs).length := by
  obtain ⟨k, rfl⟩ := Nat.exists_eq_add_of_lt hk
  obtain ⟨c, cs, rfl⟩ := List.exists_cons_of_ne_nil hc
  unfold fgetsTake; split <;> simp

/-- `fgets` が読めたなら、残りの入力は短くなる。 -/
theorem fgets_rest_lt {b b' : List Char} {n : Nat} {f f' : Stream} (hn : 2 ≤ n)
    (h : fgets b n f = (some b', f')) : f'.rest.length < f.rest.length := by
  unfold fgets at h
  split at h
  · cases h
  · rename_i hne
    cases h
    have h1 := fgetsTake_length_le (n - 1) f.rest
    have h2 := fgetsTake_length_pos (by omega : 0 < n - 1) hne
    simp only [List.length_drop]
    omega

/-- 残りの入力の長さより多い fuel なら、`read_line` の結果は fuel によらない。 -/
theorem readLine_fuel (env : Env) {n : Nat} (hn : 2 ≤ n) :
    ∀ (fuel fuel' : Nat) (dp : Script) (f : Stream) (b : List Char),
      f.rest.length < fuel → f.rest.length < fuel' →
      fdiskScriptReadLine env n fuel dp f b = fdiskScriptReadLine env n fuel' dp f b
  | 0, _, _, _, _, h, _ => absurd h (Nat.not_lt_zero _)
  | _ + 1, 0, _, _, _, _, h' => absurd h' (Nat.not_lt_zero _)
  | fuel + 1, fuel' + 1, dp, f, b, h, h' => by
    simp only [fdiskScriptReadLine]
    rcases hfg : fgets (poke b 0 '\x00') n f with ⟨_ | b₁, f₁⟩
    · rfl
    · have hlt := fgets_rest_lt hn hfg
      dsimp only
      split
      · rfl
      · split
        · exact readLine_fuel env hn fuel fuel' _ _ _ (by omega) (by omega)
        · rfl

/-- `read_line` が 0 か -ENOTSUP を返したなら、入力を一行以上読んでいる。 -/
theorem readLine_progress (env : Env) {n : Nat} (hn : 2 ≤ n) :
    ∀ (fuel : Nat) (dp : Script) (f : Stream) (b : List Char),
      let r := fdiskScriptReadLine env n fuel dp f b
      r.1 = 0 ∨ r.1 = -ENOTSUP → r.2.2.1.rest.length < f.rest.length
  | 0, _, _, _, h => by simp [fdiskScriptReadLine, ENOTSUP] at h
  | fuel + 1, dp, f, b, h => by
    simp only [fdiskScriptReadLine] at h ⊢
    rcases hfg : fgets (poke b 0 '\x00') n f with ⟨_ | b₁, f₁⟩
    · simp [hfg, ENOTSUP] at h
    · have hlt := fgets_rest_lt hn hfg
      simp only [hfg] at h ⊢
      split at h
      · simp [EINVAL, ENOTSUP] at h
      · split
        · rename_i hc
          rw [if_pos hc] at h
          exact Nat.lt_trans (readLine_progress env hn fuel _ f₁ _ h) hlt
        · exact hlt

/-- 残りの入力の長さより多い fuel なら、`read_file` のループの結果は fuel によらない。 -/
theorem readFileLoop_fuel (env : Env) :
    ∀ (fuel fuel' : Nat) (rc : Int) (dp : Script) (f : Stream) (b : List Char),
      f.rest.length < fuel → f.rest.length < fuel' →
      readFileLoop env fuel rc dp f b = readFileLoop env fuel' rc dp f b
  | 0, _, _, _, _, _, h, _ => absurd h (Nat.not_lt_zero _)
  | _ + 1, 0, _, _, _, _, _, h' => absurd h' (Nat.not_lt_zero _)
  | fuel + 1, fuel' + 1, rc, dp, f, b, h, h' => by
    simp only [readFileLoop]
    split
    · rfl
    · split
      · rfl
      · rename_i hr
        have hp := readLine_progress env (by decide : 2 ≤ BUFSIZ) (f.rest.length + 1) dp f b
          (by simpa only [not_and_or, not_not] using hr)
        exact readFileLoop_fuel env fuel fuel' _ _ _ _ (by omega) (by omega)

/-! ## 改行で終わる一行

NUL も改行も含まない `l` に改行が続く入力を、バッファに収まる長さなら `fgets` は一度に読み、
`read_line` はその改行を NUL にする。
-/

theorem fgetsTake_line {l : List Char} (hl : '\n' ∉ l) (r : List Char) {k : Nat} (hk : l.length < k) :
    fgetsTake k (l ++ '\n' :: r) = l ++ ['\n'] := by
  induction l generalizing k with
  | nil =>
    obtain ⟨k, rfl⟩ := Nat.exists_eq_succ_of_ne_zero (Nat.pos_iff_ne_zero.mp hk)
    simp [fgetsTake]
  | cons c l ih =>
    obtain ⟨k, rfl⟩ := Nat.exists_eq_succ_of_ne_zero (Nat.pos_iff_ne_zero.mp (Nat.zero_lt_of_lt hk))
    simp only [List.mem_cons, not_or] at hl
    rw [List.cons_append, fgetsTake, if_neg (Ne.symm hl.1), ih hl.2 (Nat.lt_of_succ_lt_succ hk),
      List.cons_append]

/-- `fgets` は改行までを読み、その後ろに NUL を書く。EOF の印は立たない。 -/
theorem fgets_line {l : List Char} (hl : '\n' ∉ l) {n : Nat} (hn : l.length + 1 < n)
    (b r : List Char) (e : Bool) :
    fgets b n ⟨l ++ '\n' :: r, e⟩ = (some (l ++ '\n' :: '\x00' :: b.drop (l.length + 2)), ⟨r, e⟩) := by
  simp [fgets, fgetsTake_line hl r (by omega : l.length < n - 1), fgetsStore]

theorem lineEnd_line {l : List Char} (hl : '\n' ∉ l) (hn : '\x00' ∉ l) (t : List Char) (e : Bool) :
    lineEnd (l ++ '\n' :: '\x00' :: t) e = some l.length := by
  have hb : l ++ '\n' :: '\x00' :: t = (l ++ ['\n']) ++ '\x00' :: t := by simp
  rw [lineEnd, hb, strchrAt_nul (by simpa using hn), indexOf?_append_cons hl]

/-- `\r` で終わらない行では、改行を NUL にするだけ。 -/
theorem chompLine_line {l : List Char} (hr : l.getLast? ≠ some '\r') (x : Char) (t : List Char) :
    chompLine (l ++ x :: t) l.length = l ++ '\x00' :: t := by
  rw [chompLine, poke_append_length, if_neg]
  rintro ⟨hpos, hpeek⟩
  obtain ⟨L, c, rfl⟩ := (List.eq_nil_or_concat l).resolve_left (by rintro rfl; simp at hpos)
  simp only [List.concat_eq_append] at hr hpeek
  have : (L ++ [c]).length - 1 = L.length := by simp
  rw [this, List.append_assoc, List.singleton_append, peek_append_length] at hpeek
  simp [hpeek] at hr

/-- 改行で終わる一行を読むと、`read_buffer` は NUL で切ったその行を先頭から読む。 -/
theorem readLine_text (env : Env) {l : List Char} (hnl : '\n' ∉ l) (hnul : '\x00' ∉ l)
    (hr : l.getLast? ≠ some '\r') (hlen : l.length + 1 < BUFSIZ) {c : Char} {cs : List Char}
    (hc : l = c :: cs) (hb : isBlank c = false) (hh : c ≠ '#') (fuel : Nat) (dp : Script)
    (rest b : List Char) :
    ∃ t, fdiskScriptReadLine env BUFSIZ (fuel + 1) dp ⟨l ++ '\n' :: rest, false⟩ b =
      let r := fdiskScriptReadBuffer env { dp with nlines := dp.nlines + 1 } (l ++ '\x00' :: t) 0
      (r.1, r.2.1, ⟨rest, false⟩, r.2.2) := by
  have hsk : ∀ t, skipBlank (l ++ '\x00' :: t) 0 = 0 := fun t => by
    simp [skipBlank, hc, List.takeWhile_cons, hb]
  have hpk : ∀ t, peek (l ++ '\x00' :: t) 0 = c := fun t => by simp [peek, hc]
  have hc0 : c ≠ '\x00' := by
    rintro rfl
    exact hnul (by rw [hc]; exact List.mem_cons_self _ _)
  refine ⟨'\x00' :: (poke b 0 '\x00').drop (l.length + 2), ?_⟩
  simp only [fdiskScriptReadLine, fgets_line hnl hlen, lineEnd_line hnl hnul, chompLine_line hr, hsk,
    hpk, if_neg (not_or.mpr ⟨hc0, hh⟩)]

/-- 空の行は読み飛ばされる。 -/
theorem readLine_blank (env : Env) (fuel : Nat) (dp : Script) (rest b : List Char) :
    ∃ b', fdiskScriptReadLine env BUFSIZ (fuel + 1) dp ⟨'\n' :: rest, false⟩ b =
      fdiskScriptReadLine env BUFSIZ fuel { dp with nlines := dp.nlines + 1 } ⟨rest, false⟩ b' := by
  have hf := @fgets_line [] (by simp) BUFSIZ (by decide) (poke b 0 '\x00') rest false
  have he : ∀ t, lineEnd ('\n' :: '\x00' :: t) false = some 0 := fun t => by
    simpa using @lineEnd_line [] (by simp) (by simp) t false
  have hc : ∀ t, chompLine ('\n' :: t) 0 = '\x00' :: t := fun t => by
    simpa using @chompLine_line [] (by simp) '\n' t
  simp only [List.nil_append, List.length_nil, Nat.zero_add] at hf
  refine ⟨'\x00' :: '\x00' :: (poke b 0 '\x00').drop 2, ?_⟩
  simp only [fdiskScriptReadLine, hf, he, hc]
  simp [skipBlank, peek]

/-- 空の行をいくつ読んでも、数えた行のほかは何も変わらない。 -/
theorem readLine_blanks (env : Env) : ∀ (j fuel : Nat) (dp : Script) (rest b : List Char),
    ∃ b', fdiskScriptReadLine env BUFSIZ (fuel + j) dp ⟨List.replicate j '\n' ++ rest, false⟩ b =
      fdiskScriptReadLine env BUFSIZ fuel { dp with nlines := dp.nlines + j } ⟨rest, false⟩ b'
  | 0, fuel, dp, rest, b => ⟨b, rfl⟩
  | j + 1, fuel, dp, rest, b => by
    obtain ⟨b₁, h₁⟩ := readLine_blank env (fuel + j) dp (List.replicate j '\n' ++ rest) b
    obtain ⟨b₂, h₂⟩ := readLine_blanks env j fuel { dp with nlines := dp.nlines + 1 } rest b₁
    refine ⟨b₂, ?_⟩
    rw [← Nat.add_assoc, List.replicate_succ, List.cons_append, h₁, h₂, Nat.add_assoc, Nat.add_comm 1 j]

/-- 入力が空なら、`fgets` の NULL で 1 が返り、script は変わらない。 -/
theorem readLine_end (env : Env) (fuel : Nat) (dp : Script) (b : List Char) :
    (fdiskScriptReadLine env BUFSIZ (fuel + 1) dp ⟨[], false⟩ b).1 = 1 ∧
      (fdiskScriptReadLine env BUFSIZ (fuel + 1) dp ⟨[], false⟩ b).2.1 = dp := by
  simp [fdiskScriptReadLine, fgets]

/-! ## 行の終わり -/

/--
**最後の行の改行で `read_file` の戻り値が変わる。**

知らない header の行は -ENOTSUP を返し、`read_file` のループはそれを無視して次の行へ進む。
改行で終わる最後の行なら、次の `fgets` が NULL を返して 1 になり、0 で終わる。
改行の無い最後の行では、その行を読む `fgets` が EOF の印を立てるので、ループはその -ENOTSUP で
止まり、それがそのまま戻り値になる。script はどちらでも同じ。
-/
theorem read_file_final_newline :
    (fdiskScriptReadFile Env.bare Script.fresh (.ofText "foo: bar".toList)).1 = -ENOTSUP ∧
      (fdiskScriptReadFile Env.bare Script.fresh (.ofText "foo: bar\n".toList)).1 = 0 ∧
      (fdiskScriptReadFile Env.bare Script.fresh (.ofText "foo: bar".toList)).2 =
        (fdiskScriptReadFile Env.bare Script.fresh (.ofText "foo: bar\n".toList)).2 := by
  decide

/--
**`parse_line_valcommas` は行の NUL を越えて読む。**

行 `", "` の NUL は 2 番目にある。start は `,` で既定値になって位置が 1 に進む。次の周で位置は
空白を飛ばして NUL（2）に来る。size の項目では `is_default_value` が NUL を見て 1 を返すが
位置を動かさないので、`begin == p` の `p++` が位置を 3 へ進め、ループはそこの byte を読む。

改行の無い最後の行では、そこは前の行の残りである。前の行（コメント）のその位置が空白なら
行は読めるが、`"` なら type の項目として読まれて行全体が -EINVAL になる。
-/
theorem valcommas_reads_past_nul :
    (parseLineValcommas Env.bare Script.fresh (", ".toList ++ ['\x00', '\x00']) 0).2.2.2 = 3 ∧
      (fdiskScriptReadFile Env.bare Script.fresh (.ofText "#   \n, ".toList)).1 = 0 ∧
      (fdiskScriptReadFile Env.bare Script.fresh (.ofText "#  \"\n, ".toList)).1 = -EINVAL := by
  decide

end Fdisk
