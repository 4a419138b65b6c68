import SimpleInit.Fdisk.Read

/-!
# sfdisk の形式で書く

`write_file_sfdisk` を写す。header を `name: data` の行で書き、table が空でなければ空行の後に
partition を一行ずつ書く。書いた文字列と、`attrs` を書くかを決める `script_get_label` が
label の cache を埋めた後の script を返す。

`fdisk_partname` と `fputs_quoted` は `Env` の関数として与える。

## 主な定理

* `sfdisk_roundtrip_breaks` — 読めた script を書いて読み直すと失敗する行がある
* `partno_from_devname_spec` — `partno_from_devname` の値と、行の頭の `%zu :` が元の番号に読み戻ること
-/

namespace Fdisk

/-! ## 数の表記 -/

/-- `%zu`／`%ju`：十進の表記。 -/
def decimal (n : Nat) : List Char := Nat.toDigits 10 n

/-- `%12ju`：幅 12 に空白で右詰めにする。 -/
def pad12 (s : List Char) : List Char := List.replicate (12 - s.length) ' ' ++ s

/-- `%x`：十六進の小文字の表記。 -/
def hex (n : Nat) : List Char := Nat.toDigits 16 n

theorem digitChar_isDigit : ∀ d < 10, isDigit (Nat.digitChar d) = true := by decide

theorem toDigitsCore_isDigit (fuel n : Nat) (ds : List Char) (h : ∀ c ∈ ds, isDigit c = true) :
    ∀ c ∈ Nat.toDigitsCore 10 fuel n ds, isDigit c = true := by
  induction fuel generalizing n ds with
  | zero => exact h
  | succ fuel ih =>
    have h' : ∀ c ∈ Nat.digitChar (n % 10) :: ds, isDigit c = true :=
      List.forall_mem_cons.mpr ⟨digitChar_isDigit _ (Nat.mod_lt _ (by decide)), h⟩
    show ∀ c ∈ (if n / 10 = 0 then Nat.digitChar (n % 10) :: ds
      else Nat.toDigitsCore 10 fuel (n / 10) (Nat.digitChar (n % 10) :: ds)), isDigit c = true
    split
    · exact h'
    · exact ih _ _ h'

theorem toDigitsCore_ne_nil (fuel n : Nat) (ds : List Char) (h : ds ≠ []) :
    Nat.toDigitsCore 10 fuel n ds ≠ [] := by
  induction fuel generalizing n ds with
  | zero => exact h
  | succ fuel ih =>
    show (if n / 10 = 0 then Nat.digitChar (n % 10) :: ds
      else Nat.toDigitsCore 10 fuel (n / 10) (Nat.digitChar (n % 10) :: ds)) ≠ []
    split
    · exact List.cons_ne_nil _ _
    · exact ih _ _ (List.cons_ne_nil _ _)

/-- 十進の表記は、空でない数字の列。 -/
theorem decimal_digits (n : Nat) : decimal n ≠ [] ∧ ∀ c ∈ decimal n, isDigit c = true := by
  refine ⟨?_, toDigitsCore_isDigit _ n [] (by simp)⟩
  show (if n / 10 = 0 then [Nat.digitChar (n % 10)]
    else Nat.toDigitsCore 10 n (n / 10) [Nat.digitChar (n % 10)]) ≠ []
  split
  · exact List.cons_ne_nil _ _
  · exact toDigitsCore_ne_nil _ _ _ (List.cons_ne_nil _ _)

theorem digitChar_value : ∀ d < 10, (Nat.digitChar d).toNat - '0'.toNat = d := by decide

theorem foldl_toDigitsCore (fuel n : Nat) (ds : List Char) (h : n < fuel) :
    (Nat.toDigitsCore 10 fuel n ds).foldl (fun a c => 10 * a + (c.toNat - '0'.toNat)) 0 =
      ds.foldl (fun a c => 10 * a + (c.toNat - '0'.toNat)) n := by
  induction fuel generalizing n ds with
  | zero => omega
  | succ fuel ih =>
    have hd := digitChar_value (n % 10) (Nat.mod_lt _ (by decide))
    show (if n / 10 = 0 then Nat.digitChar (n % 10) :: ds
      else Nat.toDigitsCore 10 fuel (n / 10) (Nat.digitChar (n % 10) :: ds)).foldl _ 0 = _
    split
    · rw [List.foldl_cons, hd]; congr 1; omega
    · rw [ih _ _ (by omega), List.foldl_cons, hd]; congr 1; omega

/-- 十進の表記を読むと元の数に戻る。 -/
theorem decimalValue_decimal (n : Nat) : decimalValue (decimal n) = n :=
  foldl_toDigitsCore (n + 1) n [] (by omega)

theorem toDigitsCore_length_le (fuel : Nat) : ∀ (k n : Nat) (ds : List Char), n < 10 ^ (k + 1) →
    (Nat.toDigitsCore 10 fuel n ds).length ≤ ds.length + k + 1 := by
  induction fuel with
  | zero => intro k n ds _; show ds.length ≤ _; omega
  | succ fuel ih =>
    intro k n ds hn
    show (if n / 10 = 0 then Nat.digitChar (n % 10) :: ds
      else Nat.toDigitsCore 10 fuel (n / 10) (Nat.digitChar (n % 10) :: ds)).length ≤ _
    split
    · simp
    · cases k with
      | zero => omega
      | succ k =>
        have := ih k (n / 10) (Nat.digitChar (n % 10) :: ds)
          (Nat.div_lt_of_lt_mul (by rw [Nat.pow_succ] at hn; omega))
        simp only [List.length_cons] at this
        omega

/-- `n < 10 ^ (k + 1)` の十進の表記は高々 `k + 1` 桁。 -/
theorem decimal_length_le {n k : Nat} (h : n < 10 ^ (k + 1)) : (decimal n).length ≤ k + 1 := by
  simpa using toDigitsCore_length_le (n + 1) k n [] h

theorem pad12_blank (s : List Char) : ∀ x ∈ List.replicate (12 - s.length) ' ', isBlank x = true :=
  fun x hx => by rw [List.eq_of_mem_replicate hx]; rfl

/-- 書いた数の欄は、空白の後に数字が並ぶ。 -/
theorem pad12_decimal_cons (n : Nat) : ∃ pad d ds, pad12 (decimal n) = pad ++ d :: ds ∧
    decimal n = d :: ds ∧ (∀ x ∈ pad, isBlank x = true) ∧ ∀ c ∈ d :: ds, isDigit c = true := by
  obtain ⟨hne, hds⟩ := decimal_digits n
  obtain ⟨d, ds, hdec⟩ := List.exists_cons_of_ne_nil hne
  exact ⟨_, d, ds, by rw [pad12, hdec], hdec, pad12_blank _, hdec ▸ hds⟩

/-- 書いた数の欄には NUL も改行も `\r` も無い。 -/
theorem pad12_decimal_char (n : Nat) :
    ∀ c ∈ pad12 (decimal n), c ≠ '\x00' ∧ c ≠ '\n' ∧ c ≠ '\r' := fun c h => by
  rcases List.mem_append.mp h with h | h
  · rw [List.eq_of_mem_replicate h]; decide
  · have hd := (decimal_digits n).2 c h
    exact ⟨ne_of_isDigit hd rfl, ne_of_isDigit hd rfl, ne_of_isDigit hd rfl⟩

/-! ## header と partition の行 -/

/-- `fprintf(f, "%s: %s\n", fi->name, fi->data)`。 -/
def headerLine (fi : Header) : List Char := fi.name ++ ": ".toList ++ fi.data ++ ['\n']

/-- header のループを終えたときの `devname`：名前がちょうど `"device"` の最後の header の値。 -/
def devnameOf (hs : List Header) : Option (List Char) :=
  hs.foldl (fun d fi => if fi.name = "device".toList then some fi.data else d) none

/-- `pa->partno + 1`（`size_t`）。partno が未定義（`(size_t) -1`）なら 0 になる。 -/
def partnoNext (pa : Partition) : Nat :=
  match pa.partno with
  | some n => (n + 1) % 2 ^ 64
  | none => 0

/-- `attrs` を書くか：`!lb || fdisk_label_get_type(lb) != FDISK_DISKLABEL_DOS`。 -/
def writesAttrs (lb : Option Label) : Bool := lb.all fun l => !l.isDos

/-- `write_file_sfdisk` のループの一周：partition 一つの行。 -/
def partitionLine (env : Env) (devname : Option (List Char)) (dp : Script) (pa : Partition) :
    List Char × Script :=
  let head := match devname.bind (env.partname · (partnoNext pa)) with
    | some p => p ++ " :".toList
    | none => decimal (partnoNext pa) ++ " :".toList
  let start := match pa.start with
    | some n => " start=".toList ++ pad12 (decimal n)
    | none => []
  let size := match pa.size with
    | some n => ", size=".toList ++ pad12 (decimal n)
    | none => []
  let type := match pa.type with
    | some ⟨some s, _⟩ => ", type=".toList ++ s
    | some ⟨none, code⟩ => ", type=".toList ++ hex code
    | none => []
  let uuid := match pa.uuid with
    | some u => ", uuid=".toList ++ u
    | none => []
  let name := match pa.name with
    | some n => if n = [] then [] else ", name=".toList ++ env.quoted n
    | none => []
  let attrs : List Char × Script := match pa.attrs with
    | some a =>
      let (lb, dp) := scriptGetLabel env dp
      (if writesAttrs lb then ", attrs=".toList ++ '"' :: a ++ ['"'] else [], dp)
    | none => ([], dp)
  let boot := if pa.boot then ", bootable".toList else []
  (head ++ start ++ size ++ type ++ uuid ++ name ++ attrs.1 ++ boot ++ ['\n'], attrs.2)

/-- `write_file_sfdisk` の partition のループ。 -/
def partitionLines (env : Env) (devname : Option (List Char)) :
    Script → List Partition → List Char × Script
  | dp, [] => ([], dp)
  | dp, pa :: t =>
    let l := partitionLine env devname dp pa
    let r := partitionLines env devname l.2 t
    (l.1 ++ r.1, r.2)

theorem partitionLine_length_pos (env : Env) (devname : Option (List Char)) (dp : Script)
    (pa : Partition) : 0 < (partitionLine env devname dp pa).1.length := by
  simp only [partitionLine, List.length_append, List.length_singleton]
  omega

/-- attrs の無い partition の行は、label の cache によらない。 -/
theorem partitionLine_fst_of_attrs {env : Env} {devname : Option (List Char)} {pa : Partition}
    (h : pa.attrs = none) (dp dp' : Script) :
    (partitionLine env devname dp pa).1 = (partitionLine env devname dp' pa).1 := by
  simp [partitionLine, h]

/-- attrs の無い partition だけなら、行はどれも同じ script で書かれる。 -/
theorem partitionLines_fst (env : Env) (devname : Option (List Char)) (dp : Script) :
    ∀ ps : List Partition, (∀ pa ∈ ps, pa.attrs = none) →
      (partitionLines env devname dp ps).1 = ps.flatMap fun pa => (partitionLine env devname dp pa).1
  | [], _ => rfl
  | pa :: ps, h => by
    have hsnd : (partitionLine env devname dp pa).2 = dp := by
      simp [partitionLine, h pa (List.mem_cons_self _ _)]
    simp only [partitionLines, hsnd, List.flatMap_cons,
      partitionLines_fst env devname dp ps fun g hg => h g (List.mem_cons_of_mem _ hg)]

/-- `write_file_sfdisk(dp, f)`：書いた文字列と script。 -/
def writeFileSfdisk (env : Env) (dp : Script) : List Char × Script :=
  let hdr := dp.headers.flatMap headerLine
  match dp.table with
  | none | some [] => (hdr, dp)
  | some t =>
    let r := partitionLines env (devnameOf dp.headers) dp t
    (hdr ++ '\n' :: r.1, r.2)

/-! ## 読み直し -/

/-- `t` を新しい script に読み、書いて、もう一度新しい script に読む。 -/
def sfdiskRoundtrip (env : Env) (t : List Char) : Int × Int × List Char :=
  let r := fdiskScriptReadFile env Script.fresh (.ofText t)
  let w := writeFileSfdisk env r.2
  (r.1, (fdiskScriptReadFile env Script.fresh (.ofText w.1)).1, w.1)

/--
**読めた script を sfdisk の形式で書いて読み直すと失敗する。**

start の無い partition は `N :` の直後に `, size=` か `, uuid=` が続く行になり、
`parse_line_nameval` は `:` の後ろの最初の項目を `,` から読んで -EINVAL を返す。
引用符の中の空白を含む uuid は引用符なしで書かれ、読み直すと空白で切れて残りが
知らない項目になる。
-/
theorem sfdisk_roundtrip_breaks :
    sfdiskRoundtrip Env.bare "size=100\n".toList = (0, -EINVAL, "\n0 :, size=         100\n".toList) ∧
      sfdiskRoundtrip Env.bare "start=2048, uuid=\"a b\"\n".toList =
        (0, -EINVAL, "\n0 : start=        2048, uuid=a b\n".toList) := by
  decide

/--
**`partno_from_devname` の値と、`%zu :` の番号の読み直し。**

名前を、末尾の空白類 `ws`、その手前の最長の数字の列 `ds`、残り `pre` に分ける（どの名前もこう
分けられる）。`partno_from_devname` は `ds` の値 `n` が 1 以上 `INT32_MAX` 以下なら `n - 1` を返し、
そうでなければ（数字が無い、0、`INT32_MAX` を超える、`strtol` の範囲も超える）-1 を返す。

device の header が無いとき、`write_file_sfdisk` は partition の行の頭に `partno + 1` を十進で書く
（`partitionLine` の `decimal (partnoNext pa) ++ " :"`）。partno `k` が `INT32_MAX - 1` より小さければ、
その頭で始まる行を `parse_line_nameval` が読んで足す partition の番号は `k` に戻る。
-/
theorem partno_from_devname_spec :
    (∀ pre ds ws : List Char, (∀ c ∈ ws, isSpace c = true) → (∀ c ∈ ds, isDigit c = true) →
      (∀ c ∈ pre.getLast?, isDigit c = false ∧ (ds = [] → isSpace c = false)) →
      partnoFromDevname (pre ++ ds ++ ws) =
        if 1 ≤ decimalValue ds ∧ decimalValue ds ≤ 2 ^ 31 - 1 then (decimalValue ds : Int) - 1 else -1) ∧
    ∀ (env : Env) (dp : Script) (pa : Partition) (k : Nat) (R : List Char), pa.partno = some k →
      k < 2 ^ 31 - 1 → (parseLineNameval env dp (decimal (partnoNext pa) ++ " :".toList ++ R) 0).1 = 0 →
      ((parseLineNameval env dp (decimal (partnoNext pa) ++ " :".toList ++ R) 0).2.1.table.getD []).getLast?.map
        Partition.partno = some (some k) := by
  refine ⟨partnoFromDevname_eq, fun env dp pa k R hk hlt h => ?_⟩
  have hnext : partnoNext pa = k + 1 := by
    simp only [partnoNext, hk]; exact Nat.mod_eq_of_lt (by omega)
  obtain ⟨hne, hds⟩ := decimal_digits (k + 1)
  rw [hnext] at h ⊢
  have hpno : partnoFromDevname (decimal (k + 1) ++ [' ']) = k := by
    have := partnoFromDevname_eq [] (decimal (k + 1)) [' '] (by decide) hds (by simp)
    rw [List.nil_append, decimalValue_decimal, if_pos (by omega)] at this
    rw [this]; omega
  rw [parseLineNameval_partno env dp (fun c hc => ?_) R h, hpno, if_pos (by omega)]
  · simp
  · have := hds c hc
    exact ⟨ne_of_isDigit this rfl, ne_of_isDigit this rfl, ne_of_isDigit this rfl⟩

theorem partno_from_devname_spec_sample :
    ((∀ c ∈ " ".toList, isSpace c = true) ∧ (∀ c ∈ "12".toList, isDigit c = true) ∧
        ∀ c ∈ "sda".toList.getLast?, isDigit c = false ∧ ("12".toList = [] → isSpace c = false)) ∧
      partnoFromDevname ("sda".toList ++ "12".toList ++ " ".toList) =
        (if 1 ≤ decimalValue "12".toList ∧ decimalValue "12".toList ≤ 2 ^ 31 - 1 then
          (decimalValue "12".toList : Int) - 1 else -1) ∧
      ({ Partition.new with partno := some 0 } : Partition).partno = some 0 ∧ 0 < 2 ^ 31 - 1 ∧
      (parseLineNameval Env.bare Script.fresh
        (decimal (partnoNext { Partition.new with partno := some 0 }) ++ " :".toList ++ " start=2048".toList) 0).1 = 0 ∧
      ((parseLineNameval Env.bare Script.fresh
        (decimal (partnoNext { Partition.new with partno := some 0 }) ++ " :".toList ++ " start=2048".toList)
          0).2.1.table.getD []).getLast?.map Partition.partno = some (some 0) := by
  have hp : (parseLineNameval Env.bare Script.fresh
      (decimal (partnoNext { Partition.new with partno := some 0 }) ++ " :".toList ++ " start=2048".toList) 0).1 = 0 := by
    decide
  exact ⟨⟨by decide, by decide, by decide⟩, partno_from_devname_spec.1 _ _ _ (by decide) (by decide) (by decide),
    rfl, by decide, hp, partno_from_devname_spec.2 _ _ _ 0 _ rfl (by decide) hp⟩

end Fdisk
