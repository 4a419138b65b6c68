import SimpleInit.Fdisk.Write
import SimpleInit.Fdisk.ReadScript

/-!
# header の往復

partition の無い script を `write_file_sfdisk` で書くと、header ごとに `name: data` の一行になる。
その文字列を新しい script に `fdisk_script_read_file` で読むと、同じ header の列が同じ順に戻る。

読み直せる header を `HeaderOk` にまとめる。名前は `parse_line_header` の表にあり、値は空でなく、
前後に空白類が無く、改行、NUL、`=` を含まない（`=` を含む行を `is_header_line` は header と
見ない）。label の値は `fdisk_get_label` が知っていて、unit の値は `sectors` で、行は `BUFSIZ`
の行バッファに収まる。

証明は一行ずつ進む。`fgets` が一行を読み、`read_line` が改行を NUL にし、
`read_buffer` が header の行と見て `parse_line_header` に渡し、`set_header` が末尾に足す。
ループはそれを header の数だけ繰り返し、最後の `fgets` が NULL を返して 0 で終わる。

## 主な定理

* `readLine_header` — 一行の header を読むと、その header が末尾に足される
* `readFileLoop_headers_append` — header の行を読み進め、後ろに続く入力の手前で止まる
* `readFileLoop_headerLines` — header の行を並べた入力を読み切る
* `write_file_sfdisk_headers_roundtrip` — partition の無い script は、書いて読み直すと header が
  そのまま戻る
-/

namespace Fdisk

/-! ## 書いて読み直せる header -/

/-- header の行の、改行の前までの文字：`name: data`。 -/
def headerText (fi : Header) : List Char := fi.name ++ ':' :: ' ' :: fi.data

theorem headerLine_eq (fi : Header) : headerLine fi = headerText fi ++ ['\n'] := by
  simp [headerLine, headerText]

/-- `parse_line_header` が受ける名前は、空でなく、空白類、`:`、`=`、NUL、改行、`#` を含まない。 -/
theorem supportedHeaders_plain : ∀ n ∈ supportedHeaders, n ≠ [] ∧
    ∀ c ∈ n, isSpace c = false ∧ c ≠ ':' ∧ c ≠ '=' ∧ c ≠ '\x00' ∧ c ≠ '\n' ∧ c ≠ '#' := by
  decide

/-- 書いて読み直せる header。 -/
structure HeaderOk (env : Env) (fi : Header) : Prop where
  name_mem : fi.name ∈ supportedHeaders
  data_ne : fi.data ≠ []
  data_trim : trimWhitespace fi.data = fi.data
  data_plain : ∀ c ∈ fi.data, c ≠ '\n' ∧ c ≠ '\x00' ∧ c ≠ '='
  label_known : fi.name = "label".toList → (env.getLabel (some fi.data)).isSome
  unit_sectors : fi.name = "unit".toList → fi.data = "sectors".toList
  fits : (headerLine fi).length < BUFSIZ

section
variable {env : Env} {fi : Header}

/-! ## header の行の文字 -/

/-- 行の先頭は空白でも NUL でも `#` でもない。 -/
theorem headerText_head (hfi : HeaderOk env fi) :
    ∃ c cs, headerText fi = c :: cs ∧ isBlank c = false ∧ c ≠ '\x00' ∧ c ≠ '#' := by
  obtain ⟨hne, hn⟩ := supportedHeaders_plain _ hfi.name_mem
  obtain ⟨c, cs, hc⟩ := List.exists_cons_of_ne_nil hne
  obtain ⟨hsp, -, -, hnul, -, hhash⟩ := hn c (hc ▸ List.mem_cons_self c cs)
  exact ⟨c, cs ++ ':' :: ' ' :: fi.data, by simp [headerText, hc], isBlank_eq_false hsp, hnul, hhash⟩

theorem headerText_mem (hfi : HeaderOk env fi) :
    ∀ x ∈ headerText fi, x ≠ '\x00' ∧ x ≠ '\n' ∧ x ≠ '=' := by
  have hn := (supportedHeaders_plain _ hfi.name_mem).2
  simp only [headerText, List.mem_append, List.mem_cons]
  rintro x (hx | rfl | rfl | hx)
  · exact ⟨(hn x hx).2.2.2.1, (hn x hx).2.2.2.2.1, (hn x hx).2.2.1⟩
  · decide
  · decide
  · exact ⟨(hfi.data_plain x hx).2.1, (hfi.data_plain x hx).1, (hfi.data_plain x hx).2.2⟩

/-- 行は `\r` で終わらない：値の最後の文字は空白類でない。 -/
theorem headerText_getLast (hfi : HeaderOk env fi) : (headerText fi).getLast? ≠ some '\r' := by
  have ht : headerText fi = (fi.name ++ [':', ' ']) ++ fi.data := by simp [headerText]
  cases hc : fi.data.getLast? with
  | none => exact absurd (List.getLast?_eq_none_iff.mp hc) hfi.data_ne
  | some c =>
    have hsp := trimWhitespace_getLast hfi.data_trim hc
    rw [ht, List.getLast?_append, hc]
    show some c ≠ some '\r'
    rintro ⟨⟩
    simp [isSpace] at hsp

/-! ## NUL で切った行を読む

`read_line` が改行を NUL にした後のバッファは `headerText fi ++ '\x00' :: t` で、`t` は前の行の
残りを含む。以下のどれも `t` を読まない。
-/

theorem skipBlank_headerText (hfi : HeaderOk env fi) (t : List Char) :
    skipBlank (headerText fi ++ '\x00' :: t) 0 = 0 := by
  obtain ⟨c, cs, hcs, hb, -⟩ := headerText_head hfi
  simp [skipBlank, hcs, List.takeWhile_cons, hb]

theorem peek_headerText (hfi : HeaderOk env fi) (t : List Char) :
    peek (headerText fi ++ '\x00' :: t) 0 ≠ '\x00' ∧ peek (headerText fi ++ '\x00' :: t) 0 ≠ '#' := by
  obtain ⟨c, cs, hcs, -, hn, hh⟩ := headerText_head hfi
  simpa [hcs, peek] using ⟨hn, hh⟩

theorem strchrAt_headerText (hfi : HeaderOk env fi) (t : List Char) :
    strchrAt (headerText fi ++ '\x00' :: t) 0 ':' = some fi.name.length := by
  rw [strchrAt_nul (fun h => (headerText_mem hfi _ h).1 rfl), headerText]
  exact indexOf?_append_cons (fun h => ((supportedHeaders_plain _ hfi.name_mem).2 _ h).2.1 rfl) _

theorem isHeaderLine_headerText (hfi : HeaderOk env fi) (t : List Char) :
    isHeaderLine (headerText fi ++ '\x00' :: t) 0 = true := by
  have hb : headerText fi ++ '\x00' :: t = (fi.name ++ [':']) ++ ' ' :: (fi.data ++ '\x00' :: t) := by
    simp [headerText]
  have hsp : peek (headerText fi ++ '\x00' :: t) (fi.name.length + 1) = ' ' := by
    rw [hb, show fi.name.length + 1 = (fi.name ++ [':']).length by simp, peek_append_length]
  have heq : strchrAt (headerText fi ++ '\x00' :: t) 0 '=' = none := by
    rw [strchrAt_nul (fun h => (headerText_mem hfi _ h).1 rfl), List.indexOf?_eq_none_iff]
    intro x hx
    simpa using (headerText_mem hfi x hx).2.2
  have hne := (supportedHeaders_plain _ hfi.name_mem).1
  simp [isHeaderLine, strchrAt_headerText hfi, hsp, heq, hne]

/-- `parse_line_header` は名前と値を切り出し、新しい header を末尾に足す。 -/
theorem parseLineHeader_line (hfi : HeaderOk env fi) (dp : Script)
    (hnew : scriptGetHeader dp.headers fi.name = none) (t : List Char) :
    let r := parseLineHeader env dp (headerText fi ++ '\x00' :: t) 0
    r.1 = 0 ∧ r.2.1.headers = dp.headers ++ [fi] ∧ r.2.1.table = dp.table := by
  obtain ⟨hne, hn⟩ := supportedHeaders_plain _ hfi.name_mem
  have hb₁ : poke (headerText fi ++ '\x00' :: t) fi.name.length '\x00' =
      fi.name ++ '\x00' :: (' ' :: fi.data ++ '\x00' :: t) := by
    rw [show headerText fi ++ '\x00' :: t = fi.name ++ ':' :: (' ' :: fi.data ++ '\x00' :: t) by
      simp [headerText], poke_append_length]
  have hname : trimWhitespace (cstr (fi.name ++ '\x00' :: (' ' :: fi.data ++ '\x00' :: t)) 0) =
      fi.name := by
    rw [cstr_nul (fun h => (hn _ h).2.2.2.1 rfl) _ (Nat.zero_le _), List.drop_zero,
      trimWhitespace_of_plain (fun c hc => (hn c hc).1)]
  have hval : trimWhitespace (cstr (fi.name ++ '\x00' :: (' ' :: fi.data ++ '\x00' :: t))
      (fi.name.length + 1)) = fi.data := by
    rw [cstr_after, cstr_nul (by simpa using fun h => (hfi.data_plain _ h).2.1 rfl) _
      (Nat.zero_le _), List.drop_zero, trimWhitespace_space, hfi.data_trim]
  have hlabel : ¬(fi.name = "label".toList ∧ (env.getLabel (some fi.data)).isNone = true) := by
    rintro ⟨hl, hnone⟩
    have h := hfi.label_known hl
    simp [Option.isNone_iff_eq_none.mp hnone] at h
  have hunit : ¬(fi.name = "unit".toList ∧ fi.data ≠ "sectors".toList) :=
    fun ⟨hu, hs⟩ => hs (hfi.unit_sectors hu)
  simp only [parseLineHeader, if_neg (peek_headerText hfi t).1, strchrAt_headerText hfi, hb₁, hname,
    hval]
  rw [if_neg (by simp [hne, hfi.data_ne]), if_neg (not_not.mpr hfi.name_mem), if_neg hlabel,
    if_neg hunit]
  -- `label` の行は `force_label` を立ててから足す。どちらの script でも header の列と table は同じ
  have hset : ∀ d : Script, d.headers = dp.headers → d.table = dp.table →
      (fdiskScriptSetHeader [] d (some fi.name) (some fi.data)).1 = 0 ∧
        (fdiskScriptSetHeader [] d (some fi.name) (some fi.data)).2.headers = dp.headers ++ [fi] ∧
        (fdiskScriptSetHeader [] d (some fi.name) (some fi.data)).2.table = dp.table := by
    intro d hh ht
    have ha : (allocOk [] 0 && allocOk [] 1 && allocOk [] 2) = true := rfl
    rw [setHeader_absent_data (hh ▸ hnew), if_pos ha, dropLabelCache]
    split <;> simp [hh, ht]
  split_ifs <;> exact hset _ rfl rfl

/-- table が空の間、`read_buffer` は header の行を `parse_line_header` に渡す。 -/
theorem readBuffer_header (hfi : HeaderOk env fi) (dp : Script)
    (hnew : scriptGetHeader dp.headers fi.name = none) (ht : dp.table.getD [] = []) (t : List Char) :
    let r := fdiskScriptReadBuffer env dp (headerText fi ++ '\x00' :: t) 0
    r.1 = 0 ∧ r.2.1.headers = dp.headers ++ [fi] ∧ r.2.1.table = some [] := by
  simp only [fdiskScriptReadBuffer, skipBlank_headerText hfi, if_neg (peek_headerText hfi t).1, ht,
    isHeaderLine_headerText hfi, and_self, if_true]
  exact parseLineHeader_line hfi { dp with table := some [] } hnew t

/-! ## 一行、そして全体 -/

/-- **一行の header を読む。** バッファの前の中身によらず、header が末尾に足され、入力はその行だけ進む。 -/
theorem readLine_header (hfi : HeaderOk env fi) (fuel : Nat) (dp : Script)
    (hnew : scriptGetHeader dp.headers fi.name = none) (ht : dp.table.getD [] = []) (rest b : List Char) :
    let r := fdiskScriptReadLine env BUFSIZ (fuel + 1) dp ⟨headerLine fi ++ rest, false⟩ b
    r.1 = 0 ∧ r.2.1.headers = dp.headers ++ [fi] ∧ r.2.1.table = some [] ∧ r.2.2.1 = ⟨rest, false⟩ := by
  have hmem := headerText_mem hfi
  obtain ⟨c, cs, hc, hb, -, hh⟩ := headerText_head hfi
  obtain ⟨t, hr⟩ := readLine_text env (fun h => (hmem _ h).2.1 rfl) (fun h => (hmem _ h).1 rfl)
    (headerText_getLast hfi) (by simpa [headerLine_eq] using hfi.fits) hc hb hh fuel dp rest b
  obtain ⟨h1, h2, h3⟩ := readBuffer_header hfi { dp with nlines := dp.nlines + 1 } hnew ht t
  rw [headerLine_eq, List.append_assoc, List.singleton_append, hr]
  exact ⟨h1, h2, h3, rfl⟩

end

theorem scriptGetHeader_of_noDupKeys {hs : List Header} {fi : Header} {rest : List Header}
    (h : NoDupKeys (hs ++ fi :: rest)) : scriptGetHeader hs fi.name = none := by
  rw [scriptGetHeader_eq_none]
  intro g hg heq
  rw [NoDupKeys, List.map_append, List.nodup_append] at h
  exact h.2.2 (List.mem_map_of_mem _ hg) (heq ▸ List.mem_map_of_mem _ (List.mem_cons_self fi rest))

theorem length_le_flatMap_headerLine : ∀ hs : List Header, hs.length ≤ (hs.flatMap headerLine).length
  | [] => le_refl _
  | fi :: hs => by
    have := length_le_flatMap_headerLine hs
    simp only [List.length_cons, List.flatMap_cons, List.length_append, headerLine_eq,
      List.length_singleton]
    omega

/-- **header の行を読み進める。** 名前が重ならなければ、header の数だけ回ったループは header を
順に末尾に足し、後ろに何が続いていてもその手前にいる。label の cache は合ったまま。 -/
theorem readFileLoop_headers_append (env : Env) : ∀ (hs : List Header) (fuel : Nat) (rc : Int)
    (dp : Script) (rest b : List Char), (∀ fi ∈ hs, HeaderOk env fi) → NoDupKeys (dp.headers ++ hs) →
    dp.table.getD [] = [] →
    ∃ rc' dp' b', readFileLoop env (fuel + hs.length) rc dp ⟨hs.flatMap headerLine ++ rest, false⟩ b =
      readFileLoop env fuel rc' dp' ⟨rest, false⟩ b' ∧ dp'.headers = dp.headers ++ hs ∧
      dp'.table.getD [] = [] ∧ (LabelCacheCurrent env dp → LabelCacheCurrent env dp')
  | [], fuel, rc, dp, rest, b, _, _, ht => ⟨rc, dp, b, by simp, by simp, ht, id⟩
  | fi :: hs, fuel, rc, dp, rest, b, hok, hnd, ht => by
    have hline := readLine_header (hok fi (List.mem_cons_self _ _))
      (headerLine fi ++ (hs.flatMap headerLine ++ rest)).length dp (scriptGetHeader_of_noDupKeys hnd) ht
      (hs.flatMap headerLine ++ rest) b
    have hcur := (@readLine_step env BUFSIZ (headerLine fi ++ (hs.flatMap headerLine ++ rest)).length.succ
      dp dp rfl rfl ⟨headerLine fi ++ (hs.flatMap headerLine ++ rest), false⟩ b).current
    rcases hr : fdiskScriptReadLine env BUFSIZ (headerLine fi ++ (hs.flatMap headerLine ++ rest)).length.succ
      dp ⟨headerLine fi ++ (hs.flatMap headerLine ++ rest), false⟩ b with ⟨r₁, dp₁, f₁, b₁⟩
    rw [hr] at hline hcur
    obtain ⟨rfl, h₂, h₃, rfl⟩ := hline
    obtain ⟨rc', dp', b', ih, ih₂, ih₃, ih₄⟩ := readFileLoop_headers_append env hs fuel 0 dp₁ rest b₁
      (fun g hg => hok g (List.mem_cons_of_mem _ hg))
      (by rw [h₂, List.append_assoc, List.singleton_append]; exact hnd) (by rw [h₃]; rfl)
    refine ⟨rc', dp', b', ?_, by rw [ih₂, h₂, List.append_assoc, List.singleton_append], ih₃, ih₄ ∘ hcur⟩
    rw [List.length_cons, ← Nat.add_assoc, List.flatMap_cons, List.append_assoc]
    simp only [readFileLoop, Bool.false_eq_true, if_false, hr, ne_eq, not_true_eq_false, false_and]
    exact ih

/-- **header の行を並べた入力を読み切る。** 名前が重ならなければ、header は順に末尾に足され、
最後の `fgets` の NULL でループは 1 を返す。 -/
theorem readFileLoop_headerLines (env : Env) (hs : List Header) (fuel : Nat) (rc : Int) (dp : Script)
    (b : List Char) (hok : ∀ fi ∈ hs, HeaderOk env fi) (hnd : NoDupKeys (dp.headers ++ hs))
    (ht : dp.table.getD [] = []) (hlen : (hs.flatMap headerLine).length < fuel) :
    let r := readFileLoop env fuel rc dp ⟨hs.flatMap headerLine, false⟩ b
    r.1 = 1 ∧ r.2.headers = dp.headers ++ hs ∧ r.2.table.getD [] = [] := by
  obtain ⟨k, rfl⟩ := Nat.exists_eq_add_of_lt (Nat.lt_of_le_of_lt (length_le_flatMap_headerLine hs) hlen)
  obtain ⟨rc', dp', b', h, h₂, h₃, -⟩ := readFileLoop_headers_append env hs (k + 1) rc dp [] b hok hnd ht
  obtain ⟨e₁, e₂⟩ := readLine_end env 0 dp' b'
  rw [List.append_nil, Nat.add_comm (k + 1)] at h
  rw [show hs.length + k + 1 = hs.length + (k + 1) by omega, h]
  simp only [readFileLoop, Bool.false_eq_true, if_false, List.length_nil, Nat.zero_add, e₁, e₂]
  simp [ENOTSUP, h₂, h₃]

/-! ## 往復 -/

/-- partition の無い script を sfdisk の形式で書くと、header の行だけが並ぶ。 -/
theorem writeFileSfdisk_headers (env : Env) {dp : Script} (ht : dp.table.getD [] = []) :
    (writeFileSfdisk env dp).1 = dp.headers.flatMap headerLine := by
  rcases h : dp.table with _ | _ | ⟨pa, t⟩
  · simp [writeFileSfdisk, h]
  · simp [writeFileSfdisk, h]
  · simp [h] at ht

/--
**partition の無い script は、書いて読み直すと header がそのまま戻る。**

名前が大文字小文字を無視して重ならず、どの header も `HeaderOk` なら、`write_file_sfdisk` の
出力を新しい script に読むと 0 が返り、header の列は元と同じで、partition は無い。
-/
theorem write_file_sfdisk_headers_roundtrip (env : Env) (dp : Script) (ht : dp.table.getD [] = [])
    (hnd : NoDupKeys dp.headers) (hok : ∀ fi ∈ dp.headers, HeaderOk env fi) :
    (fdiskScriptReadFile env Script.fresh (.ofText (writeFileSfdisk env dp).1)).1 = 0 ∧
      (fdiskScriptReadFile env Script.fresh (.ofText (writeFileSfdisk env dp).1)).2.headers =
        dp.headers ∧
      (fdiskScriptReadFile env Script.fresh (.ofText (writeFileSfdisk env dp).1)).2.table.getD [] =
        [] := by
  obtain ⟨h1, h2, h3⟩ := readFileLoop_headerLines env dp.headers
    ((dp.headers.flatMap headerLine).length + 2) 1 Script.fresh [] hok hnd rfl (by omega)
  simp only [fdiskScriptReadFile, Stream.ofText, writeFileSfdisk_headers env ht, h1, h2, h3]
  exact ⟨rfl, rfl, trivial⟩

theorem write_file_sfdisk_headers_roundtrip_sample :
    let dp : Script := { Script.fresh with
      headers := [⟨"unit".toList, "sectors".toList⟩, ⟨"device".toList, "/dev/sda".toList⟩,
        ⟨"first-lba".toList, "2048".toList⟩] }
    (dp.table.getD [] = [] ∧ NoDupKeys dp.headers ∧ ∀ fi ∈ dp.headers, HeaderOk Env.bare fi) ∧
      (fdiskScriptReadFile Env.bare Script.fresh (.ofText (writeFileSfdisk Env.bare dp).1)).1 = 0 ∧
      (fdiskScriptReadFile Env.bare Script.fresh (.ofText (writeFileSfdisk Env.bare dp).1)).2.headers =
        dp.headers ∧
      (fdiskScriptReadFile Env.bare Script.fresh
        (.ofText (writeFileSfdisk Env.bare dp).1)).2.table.getD [] = [] := by
  intro dp
  have hok : ∀ fi ∈ dp.headers, HeaderOk Env.bare fi := by
    intro fi hfi
    simp only [dp, List.mem_cons, List.mem_singleton, List.not_mem_nil, or_false] at hfi
    rcases hfi with rfl | rfl | rfl <;>
      exact ⟨by decide, by decide, by decide, by decide, by decide, by decide, by decide⟩
  have hnd : NoDupKeys dp.headers := by
    unfold NoDupKeys dp; decide
  exact ⟨⟨rfl, hnd, hok⟩, write_file_sfdisk_headers_roundtrip Env.bare dp rfl hnd hok⟩

end Fdisk
