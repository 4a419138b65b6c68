import Mathlib.Algebra.Group.Nat.Basic
import SimpleInit.Fdisk.CString

/-!
# script の状態と header

`struct fdisk_script` のうち、parser と writer と header 操作が読み書きする部分を写す。

* `Env` — script の関数が呼ぶ libfdisk / util-linux の関数で、`src/` に無いもの。
  label の検索、partition type の解析と表示、`parse_size`、`fdisk_partname` など。
  どれも引数として与え、定理はその全てについて言う。
* `Partition` — `struct fdisk_partition` の、script が触る欄
* `Script` — header の列、partition table、label の cache
* `fdiskScriptSetHeader` / `fdiskScriptGetHeader` / `fdiskResetScript` / `scriptGetLabel`

メモリ確保の成否は `allocOk` の列で与える。`n` 番目の確保が失敗するなら `n` 番目が `false`。
-/

namespace Fdisk

/-! ## errno -/

def EINVAL : Int := 22
def ENOMEM : Int := 12
def ENOTSUP : Int := 95

/-! ## libfdisk の外の部分 -/

/-- `struct fdisk_label` のうち script が見るもの。 -/
structure Label where
  name : List Char
  isDos : Bool
deriving DecidableEq, Repr

/-- `struct fdisk_parttype` のうち script が見るもの。 -/
structure PartType where
  /-- `fdisk_parttype_get_string`。 -/
  typestr : Option (List Char)
  /-- `fdisk_parttype_get_code`。 -/
  code : Nat
deriving DecidableEq, Repr

/-- script が呼び出す、`src/` に無い関数。 -/
structure Env where
  /-- `fdisk_get_label(cxt, name)`。 -/
  getLabel : Option (List Char) → Option Label
  /-- `fdisk_label_advparse_parttype(lb, str, flags)`。 -/
  advparseParttype : Option Label → List Char → Option PartType
  /-- `parse_size(str, &num, &pow)`：成功なら `(num, pow)`、失敗なら負の errno。 -/
  parseSize : List Char → Except Int (Nat × Nat)
  /-- `cxt->sector_size`。 -/
  sectorSize : Nat
  /-- `fdisk_partname(devname, partno)`。 -/
  partname : List Char → Nat → Option (List Char)
  /-- `unhexmangle_string`。 -/
  unhexmangle : List Char → List Char
  /-- `fputs_quoted` が書く文字列。 -/
  quoted : List Char → List Char

/-- 十進の数字列の値。 -/
def decimalValue (s : List Char) : Nat := s.foldl (fun n c => 10 * n + (c.toNat - '0'.toNat)) 0

/--
label の driver も partition type の表も持たず、`parse_size` が十進の数字列だけを
（接尾辞なしで）受ける、いちばん小さな環境。具体的な入力で定理を使うときに与える。
-/
def Env.bare : Env where
  getLabel _ := none
  advparseParttype _ _ := none
  parseSize s := if s ≠ [] ∧ s.all isDigit then .ok (decimalValue s, 0) else .error (-EINVAL)
  sectorSize := 512
  partname _ _ := none
  unhexmangle s := s
  quoted s := '"' :: s ++ ['"']

/-! ## partition -/

/-- `FDISK_MOVE_*`。 -/
inductive MoveStart
  | none | down | up
deriving DecidableEq, Repr

/-- `FDISK_RESIZE_*`。 -/
inductive Resize
  | none | reduce | enlarge
deriving DecidableEq, Repr

/-- `struct fdisk_partition` のうち script が触る欄。未定義（`FDISK_INIT_UNDEF`）は `none`。 -/
structure Partition where
  partno : Option Nat
  start : Option Nat
  size : Option Nat
  startFollowDefault : Bool
  endFollowDefault : Bool
  partnoFollowDefault : Bool
  movestart : MoveStart
  resize : Resize
  sizeExplicit : Bool
  boot : Bool
  type : Option PartType
  uuid : Option (List Char)
  name : Option (List Char)
  attrs : Option (List Char)
deriving DecidableEq, Repr

/-- `fdisk_new_partition`。 -/
def Partition.new : Partition :=
  { partno := none, start := none, size := none, startFollowDefault := false,
    endFollowDefault := false, partnoFollowDefault := false, movestart := .none,
    resize := .none, sizeExplicit := false, boot := false, type := none, uuid := none,
    name := none, attrs := none }

/-- `FDISK_INIT_UNDEF` を 64 bit の sector 値で表したもの。 -/
def sectorUndef : Nat := 2 ^ 64 - 1

/-- `fdisk_partition_set_start`。未定義の値は拒む。 -/
def Partition.setStart (pa : Partition) (n : Nat) : Partition :=
  if n = sectorUndef then pa else { pa with start := some n }

/-- `fdisk_partition_set_size`。 -/
def Partition.setSize (pa : Partition) (n : Nat) : Partition :=
  if n = sectorUndef then pa else { pa with size := some n }

theorem Partition.setStart_partno (pa : Partition) (n : Nat) : (pa.setStart n).partno = pa.partno := by
  unfold Partition.setStart; split <;> rfl

theorem Partition.setSize_partno (pa : Partition) (n : Nat) : (pa.setSize n).partno = pa.partno := by
  unfold Partition.setSize; split <;> rfl

/-! ## script -/

/-- `struct fdisk_scriptheader`。 -/
structure Header where
  name : List Char
  data : List Char
deriving DecidableEq, Repr

/-- `struct fdisk_script` の parser の状態。`table` が `none` なのは `dp->table == NULL`。 -/
structure Script where
  table : Option (List Partition)
  headers : List Header
  label : Option Label
  nlines : Nat
  forceLabel : Bool
deriving DecidableEq, Repr

/-- `fdisk_new_script` が返す空の script。 -/
def Script.fresh : Script :=
  { table := none, headers := [], label := none, nlines := 0, forceLabel := false }

/-- `n` 番目のメモリ確保が成功するか。列が尽きた先はすべて成功。 -/
def allocOk (a : List Bool) (n : Nat) : Bool := a.getD n true

/-! ## header -/

/-- `script_get_header`：名前が大文字小文字を無視して等しい最初の header。 -/
def scriptGetHeader (hs : List Header) (name : List Char) : Option Header :=
  hs.find? (fun fi => strcasecmpEq fi.name name)

/-- `fdisk_script_get_header`。 -/
def fdiskScriptGetHeader (dp : Script) (name : List Char) : Option (List Char) :=
  (scriptGetHeader dp.headers name).map (·.data)

/-- 見つかった header の `data` を差し替える（`free(fi->data); fi->data = x`）。 -/
def updateHeader (name data : List Char) : List Header → List Header
  | [] => []
  | fi :: rest =>
    if strcasecmpEq fi.name name then { fi with data := data } :: rest
    else fi :: updateHeader name data rest

/-- 見つかった header を外す（`fdisk_script_free_header`）。 -/
def removeHeader (name : List Char) (hs : List Header) : List Header :=
  hs.eraseP (fun fi => strcasecmpEq fi.name name)

/-- 成功した `set_header` の最後の一行：名前がちょうど `"label"` なら label の cache を捨てる。 -/
def dropLabelCache (name : List Char) (dp : Script) : Script :=
  if name = "label".toList then { dp with label := none } else dp

/--
`fdisk_script_set_header`。`name` と `data` の `none` は NULL。

新しい header は calloc、名前の strdup、data の strdup の三つを確保する。
既存の header の更新は data の strdup 一つ。
-/
def fdiskScriptSetHeader (a : List Bool) (dp : Script) (name data : Option (List Char)) :
    Int × Script :=
  match name with
  | none => (-EINVAL, dp)
  | some n =>
    match scriptGetHeader dp.headers n, data with
    | none, none => (0, dp)
    | some _, none => (0, { dp with headers := removeHeader n dp.headers })
    | none, some d =>
      if allocOk a 0 && allocOk a 1 && allocOk a 2 then
        (0, dropLabelCache n { dp with headers := dp.headers ++ [⟨n, d⟩] })
      else (-ENOMEM, dp)
    | some _, some d =>
      if allocOk a 0 then (0, dropLabelCache n { dp with headers := updateHeader n d dp.headers })
      else (-ENOMEM, dp)

/-- `fdisk_reset_script`：table を空にし、header を全部捨てる。label の cache は触らない。 -/
def fdiskResetScript (dp : Script) : Script :=
  { dp with table := dp.table.map (fun _ => []), headers := [] }

/-- `script_get_label`：cache が空なら `"label"` header で引いて入れる。 -/
def scriptGetLabel (env : Env) (dp : Script) : Option Label × Script :=
  match dp.label with
  | some lb => (some lb, dp)
  | none =>
    let lb := env.getLabel (fdiskScriptGetHeader dp "label".toList)
    (lb, { dp with label := lb })

end Fdisk
