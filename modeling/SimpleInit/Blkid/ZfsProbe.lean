import Mathlib.Algebra.Group.Int
import SimpleInit.Blkid.Zfs

/-!
# ZFS の uberblock を探す

blkid の `find_uberblocks` と `probe_zfs` を写す。device の四つの label（先頭の二つと末尾の
二つ、各 256 KiB）のうち partition table に覆われないものを読み、各 label の後半にある 128 個の
uberblock の magic を数える。合わせて `ZFS_WANT` 個見つかったところで止め、最後に見つけた
uberblock の版と magic を probe に残し、同じ label の nvlist を `zfs_extract_guid_name` に渡す。

* `hostU64` — 機械の byte 順（`Endian`）で読む 64 bit。`ub->ub_magic` と `ub->ub_version` はこの順で読む
* `findUberblocks` — 一つの label の中の 128 個を調べる
* `probeLabels` — label のループ。`continue`、`return`、`break` を写す
* `probeZfs` — `probe_zfs` 全体：戻り値と、probe に残した値

libblkid の関数は `ProbeDev` の欄として与える。buffer は添字から byte への関数で表す。
`loff_t` に入れる値は `toLoff` で 2 の補数に折り返す。

## 主な定理

* `foldl_ubCheck_cases` — 見つけた数が増えていれば、`*ub_offset` は magic の合う uberblock を指す
* `probeLabels_found` — ループが `ZFS_WANT` 個で抜けたなら、`ub`、`ub_offset`、`offset` は
  どれも最後に読んだ label の、magic の合う一つの uberblock のもの
* `probe_zfs_sound` — 0 を返したなら、版と magic はその uberblock をその byte 順で読んだもので、
  nvlist も同じ label から読む
* `probe_zfs_label0` — 先頭の label に magic の合う uberblock が 4 個あれば 0 を返す
* `probe_zfs_host_independent` — 結果は、UUID の生の byte の並びのほかは機械の byte 順によらない
-/

namespace Blkid.Zfs

/-! ## byte 順 -/

/-- buffer `b` の `o` から 8 byte。 -/
def bytes8 (b : Nat → UInt8) (o : Nat) : List Nat := (List.range 8).map fun i => (b (o + i)).toNat

theorem bytes8_lt (b : Nat → UInt8) (o : Nat) : ∀ x ∈ bytes8 b o, x < 256 := by
  simp only [bytes8, List.mem_map]
  rintro _ ⟨i, -, rfl⟩
  exact (b (o + i)).toNat_lt_size

@[simp] theorem bytes8_length (b : Nat → UInt8) (o : Nat) : (bytes8 b o).length = 8 := by
  simp [bytes8]

/-- `*(uint64_t *) (b + o)`：機械の byte 順で読んだ 64 bit。 -/
def hostU64 : Endian → (Nat → UInt8) → Nat → Nat
  | .little, b, o => leNum (bytes8 b o)
  | .big, b, o => leNum (bytes8 b o).reverse

/-- `bswap_64`：下位から 8 byte に分け、逆の順に並べ直す。 -/
def bswap64 (x : Nat) : Nat := leNum (leBytes 8 x).reverse

/-- 相手の byte 順で読んだ値は、byte を入れ替えた値である。 -/
theorem hostU64_little (b : Nat → UInt8) (o : Nat) :
    hostU64 .little b o = bswap64 (hostU64 .big b o) := by
  have h := leBytes_leNum (bytes8 b o).reverse fun x hx => bytes8_lt b o x (List.mem_reverse.mp hx)
  rw [List.length_reverse, bytes8_length] at h
  rw [hostU64, hostU64, bswap64, h, List.reverse_reverse]

theorem hostU64_big (b : Nat → UInt8) (o : Nat) :
    hostU64 .big b o = bswap64 (hostU64 .little b o) := by
  have h := leBytes_leNum (bytes8 b o) (bytes8_lt b o)
  rw [bytes8_length] at h
  rw [hostU64, hostU64, bswap64, h]

/-! ## `find_uberblocks` -/

/-- `UBERBLOCK_MAGIC`。 -/
def uberblockMagic : Nat := 0x00bab10c

/-- `VDEV_LABEL_UBERBLOCK`：label の中の最初の uberblock の位置。 -/
def vdevLabelUberblock : Nat := 128 * 1024

/-- `UBERBLOCK_SIZE`。 -/
def uberblockSize : Nat := 1024

/-- `UBERBLOCKS_COUNT`。 -/
def uberblocksCount : Nat := 128

/-- `VDEV_LABEL_SIZE`。 -/
def vdevLabelSize : Nat := 256 * 1024

/-- `VDEV_LABEL_NVPAIR`：label の中の nvlist の位置。 -/
def vdevLabelNvpair : Nat := 16 * 1024

/-- `ZFS_WANT`。 -/
def zfsWant : Nat := 4

/-- magic は byte を入れ替えると別の数になる。 -/
theorem bswap64_magic_ne : bswap64 uberblockMagic ≠ uberblockMagic := by decide

theorem bswap64_bswap64_magic : bswap64 (bswap64 uberblockMagic) = uberblockMagic := by decide

/-- `find_uberblocks` の `found` と、書き出す `*ub_offset`、`*swap_endian`。 -/
structure UbScan where
  found : Nat
  ubOffset : Int
  swap : Bool
deriving DecidableEq, Repr

/-- ループの一周：`offset` の uberblock の magic を、そのままと byte を入れ替えたものと比べる。 -/
def ubCheck (host : Endian) (label : Nat → UInt8) (s : UbScan) (offset : Nat) : UbScan :=
  let magic := hostU64 host label offset
  let s := if magic = uberblockMagic then ⟨s.found + 1, offset, false⟩ else s
  if magic = bswap64 uberblockMagic then ⟨s.found + 1, offset, true⟩ else s

/-- 調べる uberblock の位置：`VDEV_LABEL_UBERBLOCK` から `UBERBLOCK_SIZE` ずつ。 -/
def ubOffsets : List Nat :=
  (List.range uberblocksCount).map fun i => vdevLabelUberblock + i * uberblockSize

/-- `find_uberblocks(label, &ub_offset, &swap_endian)`。 -/
def findUberblocks (host : Endian) (label : Nat → UInt8) (ubOffset : Int) (swap : Bool) : UbScan :=
  ubOffsets.foldl (ubCheck host label) ⟨0, ubOffset, swap⟩

/-- `label` の `u` の uberblock の magic が、`swap` の示す順で合う。 -/
def UbMatch (host : Endian) (label : Nat → UInt8) (u : Nat) (swap : Bool) : Prop :=
  hostU64 host label u = if swap then bswap64 uberblockMagic else uberblockMagic

/-- `os` の中で、magic がどちらかの順で合う uberblock の数。 -/
def ubCount (host : Endian) (label : Nat → UInt8) (os : List Nat) : Nat :=
  (os.filter fun u => hostU64 host label u = uberblockMagic ∨
    hostU64 host label u = bswap64 uberblockMagic).length

section
variable {host : Endian} {label : Nat → UInt8}

/-- 二つの比較は同時には通らないので、一周は次の三つのどれか。 -/
theorem ubCheck_eq (s : UbScan) (o : Nat) :
    ubCheck host label s o =
      if hostU64 host label o = uberblockMagic then ⟨s.found + 1, o, false⟩
      else if hostU64 host label o = bswap64 uberblockMagic then ⟨s.found + 1, o, true⟩
      else s := by
  unfold ubCheck
  by_cases h : hostU64 host label o = uberblockMagic
  · simp only [h, if_true, if_neg (Ne.symm bswap64_magic_ne)]
  · simp only [h, if_false]

theorem ubCheck_cases (s : UbScan) (o : Nat) :
    ubCheck host label s o = s ∨
      (s.found < (ubCheck host label s o).found ∧ (ubCheck host label s o).ubOffset = o ∧
        UbMatch host label o (ubCheck host label s o).swap) := by
  rw [ubCheck_eq]
  split_ifs with h₁ h₂
  · exact .inr ⟨Nat.lt_succ_self _, rfl, by simpa [UbMatch] using h₁⟩
  · exact .inr ⟨Nat.lt_succ_self _, rfl, by simpa [UbMatch] using h₂⟩
  · exact .inl rfl

/-- **`find_uberblocks` の出力。** 何も見つけなければ `*ub_offset` と `*swap_endian` はそのまま、
見つけたなら最後に見つけた uberblock の位置と、その magic の合った順。 -/
theorem foldl_ubCheck_cases : ∀ (os : List Nat) (s : UbScan),
    os.foldl (ubCheck host label) s = s ∨
      (s.found < (os.foldl (ubCheck host label) s).found ∧
        ∃ u ∈ os, (os.foldl (ubCheck host label) s).ubOffset = u ∧
          UbMatch host label u (os.foldl (ubCheck host label) s).swap)
  | [], s => .inl rfl
  | o :: os, s => by
    rw [List.foldl_cons]
    rcases foldl_ubCheck_cases os (ubCheck host label s o) with h | ⟨hlt, u, hu, hoff, hm⟩
    · rw [h]
      rcases @ubCheck_cases host label s o with h' | ⟨hlt, hoff, hm⟩
      · exact .inl h'
      · exact .inr ⟨hlt, o, List.mem_cons_self _ _, hoff, hm⟩
    · have hle : s.found ≤ (ubCheck host label s o).found := by
        rcases @ubCheck_cases host label s o with h' | ⟨h', -⟩
        · rw [h']
        · exact h'.le
      exact .inr ⟨Nat.lt_of_le_of_lt hle hlt, u, List.mem_cons_of_mem _ hu, hoff, hm⟩

/-- `found` は magic の合う uberblock の数だけ増える。 -/
theorem foldl_ubCheck_found : ∀ (os : List Nat) (s : UbScan),
    (os.foldl (ubCheck host label) s).found = s.found + ubCount host label os
  | [], s => rfl
  | o :: os, s => by
    rw [List.foldl_cons, foldl_ubCheck_found os, ubCheck_eq]
    simp only [ubCount, List.filter_cons]
    split_ifs <;> simp_all <;> omega

end

/-! ## `probe_zfs` -/

/-- libblkid が `probe_zfs` に渡すものと、`probe_zfs` が呼ぶ libblkid の関数。 -/
structure ProbeDev where
  /-- `pr->size`。 -/
  size : Nat
  /-- 機械の byte 順。 -/
  host : Endian
  /-- `S_ISREG(pr->mode) || blkid_probe_is_wholedisk(pr)`。 -/
  wholeDisk : Bool
  /-- `blkid_probe_is_covered_by_pt(pr, offset, size)`。 -/
  coveredByPt : Int → Nat → Bool
  /-- `blkid_probe_get_buffer(pr, offset, len)`。NULL は `none`。 -/
  getBuffer : Int → Nat → Option (Nat → UInt8)
  /-- `blkid_probe_get_buffer` が NULL を返した後の `errno`。 -/
  errno : Int
  /-- `blkid_probe_set_magic(pr, offset, len, magic)` の戻り値。 -/
  setMagic : Int → Nat → List UInt8 → Int

/-- 符号なしの 64 bit の値を `loff_t` に入れる：2 の補数で折り返す。 -/
def toLoff (x : Int) : Int := (x + 2 ^ 63) % 2 ^ 64 - 2 ^ 63

/-- `switch (label_no)` の決める label の位置。`blk_align` は `pr->size % (256 * 1024ULL)`。 -/
def labelOffset (size : Nat) : Nat → Int
  | 0 => 0
  | 1 => vdevLabelSize
  | 2 => toLoff (size - 2 * vdevLabelSize - (size % vdevLabelSize : Nat))
  | _ => toLoff (size - vdevLabelSize - (size % vdevLabelSize : Nat))

/-- `(offset & ~(VDEV_LABEL_SIZE - 1)) + VDEV_LABEL_NVPAIR`：label の先頭に切り下げた nvlist の位置。 -/
def nvlistOffset (offset : Int) : Int := toLoff (offset - offset % vdevLabelSize + vdevLabelNvpair)

/-- `probe_zfs` のループの変数。 -/
structure LabelScan where
  /-- `found`。 -/
  found : Nat
  /-- `ub`：最後に見つけた uberblock。その label の buffer と、buffer の中の位置。 -/
  ub : Option ((Nat → UInt8) × Nat)
  /-- `ub_offset`。 -/
  ubOffset : Int
  /-- `bswap_endian`。 -/
  swap : Bool
  /-- `offset`。 -/
  offset : Int

/-- ループに入る前の変数。 -/
def LabelScan.init : LabelScan := ⟨0, none, 0, false, 0⟩

/-- `probe_zfs` の label のループ。`return` は `.error`、`break` とループの終わりは `.ok`。 -/
def probeLabels (d : ProbeDev) : List Nat → LabelScan → Except Int LabelScan
  | [], s => .ok s
  | n :: ns, s =>
    let offset := labelOffset d.size n
    let s := { s with offset := offset }
    if d.wholeDisk && d.coveredByPt offset vdevLabelSize then probeLabels d ns s
    else
      match d.getBuffer offset vdevLabelSize with
      | none => .error (if d.errno ≠ 0 then -d.errno else 1)
      | some label =>
        let r := findUberblocks d.host label s.ubOffset s.swap
        if 0 < r.found then
          let s := { s with
            found := s.found + r.found
            ub := some (label, r.ubOffset.toNat)
            ubOffset := r.ubOffset + offset
            swap := r.swap }
          if zfsWant ≤ s.found then .ok s else probeLabels d ns s
        else probeLabels d ns { s with ubOffset := r.ubOffset, swap := r.swap }

/-- probe に残す値。 -/
inductive ZfsValue
  /-- `blkid_probe_sprintf_version(pr, "%" PRIu64, ...)`。 -/
  | version (v : Nat)
  /-- `zfs_extract_guid_name` が残す値。 -/
  | nvpair (p : Probe)
  /-- `blkid_probe_set_magic` が残す magic の位置と byte。 -/
  | magic (offset : Int) (bytes : List UInt8)
deriving DecidableEq, Repr

/-- `blkid_probe_get_buffer(pr, offset, 4096)` の返す buffer を `NvBuf` として見る。 -/
def nvBufOf (b : Nat → UInt8) : NvBuf := ⟨(List.range 4096).map b, by simp⟩

/-- `zfs_extract_guid_name(pr, offset)` が probe に残す値。 -/
def extractAt (d : ProbeDev) (offset : Int) : List Probe :=
  match d.getBuffer (nvlistOffset offset) 4096 with
  | none => []
  | some b => (zfsExtractGuidName d.host (nvBufOf b)).2

/-- `bswap_endian ? bswap_64(ub->ub_version) : ub->ub_version`。 -/
def ubVersion (host : Endian) (label : Nat → UInt8) (u : Nat) (swap : Bool) : Nat :=
  let v := hostU64 host label (u + 8)
  if swap then bswap64 v else v

/-- `ub->ub_magic` の 8 byte。 -/
def magicBytes (label : Nat → UInt8) (u : Nat) : List UInt8 := (List.range 8).map fun i => label (u + i)

/--
`probe_zfs(pr, mag)`：戻り値と、probe に残した値。

`found` が `ZFS_WANT` 以上で `ub` が NULL のままの場合は C では起きない（`probeLabels_found`）。
-/
def probeZfs (d : ProbeDev) : Int × List ZfsValue :=
  match probeLabels d [0, 1, 2, 3] LabelScan.init with
  | .error rc => (rc, [])
  | .ok s =>
    if s.found < zfsWant then (1, [])
    else
      match s.ub with
      | none => (1, [])
      | some (label, u) =>
        let vals := .version (ubVersion d.host label u s.swap) :: (extractAt d s.offset).map .nvpair
        if d.setMagic s.ubOffset 8 (magicBytes label u) ≠ 0 then (1, vals)
        else (0, vals ++ [.magic s.ubOffset (magicBytes label u)])

/-! ## label の位置 -/

/-- label の位置はどれも `VDEV_LABEL_SIZE` の倍数で、`loff_t` の範囲にある。 -/
theorem labelOffset_aligned (size n : Nat) :
    labelOffset size n % vdevLabelSize = 0 ∧ -2 ^ 63 ≤ labelOffset size n ∧ labelOffset size n < 2 ^ 63 := by
  rcases n with _ | _ | _ | n <;> simp only [labelOffset, toLoff, vdevLabelSize] <;> omega

/-- label の位置から求めた nvlist の位置は、同じ label の中の `VDEV_LABEL_NVPAIR` にある。 -/
theorem nvlistOffset_labelOffset (size n : Nat) :
    nvlistOffset (labelOffset size n) = labelOffset size n + vdevLabelNvpair := by
  have := labelOffset_aligned size n
  simp only [nvlistOffset, toLoff, vdevLabelSize, vdevLabelNvpair] at this ⊢
  omega

/-! ## 見つけた uberblock -/

/-- label `n` を飛ばさずに読み、その中の `u` の uberblock の magic が `swap` の順で合う。 -/
structure LabelHit (d : ProbeDev) (n : Nat) (label : Nat → UInt8) (u : Nat) (swap : Bool) : Prop where
  not_skipped : (d.wholeDisk && d.coveredByPt (labelOffset d.size n) vdevLabelSize) = false
  read : d.getBuffer (labelOffset d.size n) vdevLabelSize = some label
  slot : u ∈ ubOffsets
  magic : UbMatch d.host label u swap

/--
**ループが `ZFS_WANT` 個で抜けたなら、`ub` は最後に読んだ label の、magic の合う uberblock を指す。**

`found` が `ZFS_WANT` に届くのは `break` の直前だけなので、`ub`、`ub_offset`、`bswap_endian`、
`offset` はどれもその label で書かれたものである。
-/
theorem probeLabels_found (d : ProbeDev) : ∀ (ns : List Nat) (s s' : LabelScan),
    s.found < zfsWant → probeLabels d ns s = .ok s' → zfsWant ≤ s'.found →
    ∃ n ∈ ns, ∃ label u, LabelHit d n label u s'.swap ∧ s'.ub = some (label, u) ∧
      s'.offset = labelOffset d.size n ∧ s'.ubOffset = labelOffset d.size n + u
  | [], s, s', hs, h, h' => by
    cases h
    omega
  | n :: ns, s, s', hs, h, h' => by
    have next : ∀ t, probeLabels d ns t = .ok s' → t.found < zfsWant →
        ∃ m ∈ n :: ns, ∃ label u, LabelHit d m label u s'.swap ∧ s'.ub = some (label, u) ∧
          s'.offset = labelOffset d.size m ∧ s'.ubOffset = labelOffset d.size m + u := by
      intro t h ht
      obtain ⟨m, hm, rest⟩ := probeLabels_found d ns t s' ht h h'
      exact ⟨m, List.mem_cons_of_mem _ hm, rest⟩
    simp only [probeLabels] at h
    split at h
    · exact next _ h hs
    · rename_i hskip
      split at h
      · cases h
      · rename_i label hread
        split at h
        · rename_i hpos
          split at h
          · cases h
            rcases foldl_ubCheck_cases ubOffsets ⟨0, s.ubOffset, s.swap⟩ with h0 | ⟨-, u, hu, hoff, hm⟩
            · rw [findUberblocks, h0] at hpos
              exact absurd hpos (Nat.lt_irrefl 0)
            · rw [← findUberblocks] at hoff hm
              refine ⟨n, List.mem_cons_self _ _, label, u,
                ⟨by simpa using hskip, hread, hu, hm⟩, by simp [hoff], rfl, by dsimp only; omega⟩
          · exact next _ h (by dsimp only; omega)
        · exact next _ h hs

/-- `return` が返すのは 0 でない。 -/
theorem probeLabels_error (d : ProbeDev) : ∀ (ns : List Nat) (s : LabelScan) (rc : Int),
    probeLabels d ns s = .error rc → rc ≠ 0
  | [], _, _, h => by cases h
  | n :: ns, s, rc, h => by
    simp only [probeLabels] at h
    split at h
    · exact probeLabels_error d ns _ rc h
    · split at h
      · cases h
        split <;> omega
      · split at h
        · split at h
          · cases h
          · exact probeLabels_error d ns _ rc h
        · exact probeLabels_error d ns _ rc h

/--
**`probe_zfs` が 0 を返したなら、残した値はどれも一つの uberblock とその label から来る。**

ある label `n` を飛ばさずに読み、その中の `u` に magic の合う uberblock がある。版はその
uberblock を magic の合った順で読んだもの、nvlist は同じ label から読んだもの
（`nvlistOffset_labelOffset`）、magic はその uberblock の device の上の位置と、そこの 8 byte。
-/
theorem probe_zfs_sound (d : ProbeDev) (h : (probeZfs d).1 = 0) :
    ∃ n ∈ [0, 1, 2, 3], ∃ label u swap, LabelHit d n label u swap ∧
      (probeZfs d).2 = .version (ubVersion d.host label u swap) ::
        (extractAt d (labelOffset d.size n)).map .nvpair ++
          [.magic (labelOffset d.size n + u) (magicBytes label u)] := by
  unfold probeZfs at h ⊢
  rcases hp : probeLabels d [0, 1, 2, 3] LabelScan.init with rc | s <;> rw [hp] at h
  · exact absurd h (probeLabels_error d _ _ rc hp)
  · dsimp only at h ⊢
    by_cases hf : s.found < zfsWant
    · simp [hf] at h
    · obtain ⟨n, hn, label, u, hit, hub, hoff, hubo⟩ :=
        probeLabels_found d _ _ _ (by decide) hp (Nat.le_of_not_lt hf)
      simp only [hf, if_false, hub] at h ⊢
      split at h
      · simp at h
      · rename_i hm
        rw [if_neg hm]
        exact ⟨n, hn, label, u, s.swap, hit, by rw [hoff, hubo]⟩

/-- どの位置の 1 KiB の先頭にも、little endian で書いた magic がある buffer。 -/
def sampleLabel (i : Nat) : UInt8 :=
  match i % 1024 with
  | 0 => 0x0c
  | 1 => 0xb1
  | 2 => 0xba
  | _ => 0

/-- どこを読んでも `sampleLabel` を返す、little endian の機械の上の device。 -/
def sampleDev : ProbeDev where
  size := 64 * 1024 * 1024
  host := .little
  wholeDisk := false
  coveredByPt _ _ := false
  getBuffer _ _ := some sampleLabel
  errno := 0
  setMagic _ _ _ := 0

set_option maxRecDepth 4096 in
theorem probe_zfs_sound_sample :
    (probeZfs sampleDev).1 = 0 ∧
      ∃ n ∈ [0, 1, 2, 3], ∃ label u swap, LabelHit sampleDev n label u swap ∧
        (probeZfs sampleDev).2 = .version (ubVersion sampleDev.host label u swap) ::
          (extractAt sampleDev (labelOffset sampleDev.size n)).map .nvpair ++
            [.magic (labelOffset sampleDev.size n + u) (magicBytes label u)] :=
  have h : (probeZfs sampleDev).1 = 0 := by decide
  ⟨h, probe_zfs_sound sampleDev h⟩

/-! ## 先頭の label で見つかる場合 -/

/--
**先頭の label を飛ばさずに読めて、その中に magic の合う uberblock が `ZFS_WANT` 個あり、
`blkid_probe_set_magic` が成功するなら、`probe_zfs` は 0 を返す。**
-/
theorem probe_zfs_label0 (d : ProbeDev) (label : Nat → UInt8)
    (hskip : (d.wholeDisk && d.coveredByPt 0 vdevLabelSize) = false)
    (hread : d.getBuffer 0 vdevLabelSize = some label)
    (hcount : zfsWant ≤ ubCount d.host label ubOffsets)
    (hmagic : ∀ o n m, d.setMagic o n m = 0) : (probeZfs d).1 = 0 := by
  have hfound : (findUberblocks d.host label 0 false).found = ubCount d.host label ubOffsets := by
    rw [findUberblocks, foldl_ubCheck_found, Nat.zero_add]
  have hpos : 0 < (findUberblocks d.host label 0 false).found := by
    rw [hfound]; unfold zfsWant at hcount; omega
  have hwant : zfsWant ≤ 0 + (findUberblocks d.host label 0 false).found := by
    rw [Nat.zero_add, hfound]; exact hcount
  have hp : probeLabels d [0, 1, 2, 3] LabelScan.init = .ok
      { found := 0 + (findUberblocks d.host label 0 false).found
        ub := some (label, (findUberblocks d.host label 0 false).ubOffset.toNat)
        ubOffset := (findUberblocks d.host label 0 false).ubOffset + 0
        swap := (findUberblocks d.host label 0 false).swap
        offset := 0 } := by
    rw [probeLabels]
    simp only [labelOffset, LabelScan.init, hskip, Bool.false_eq_true, if_false, hread, if_pos hpos,
      if_pos hwant]
  rw [probeZfs, hp]
  dsimp only
  rw [if_neg (Nat.not_lt_of_le hwant), if_neg (not_not.mpr (hmagic _ _ _))]

set_option maxRecDepth 4096 in
theorem probe_zfs_label0_sample :
    (sampleDev.wholeDisk && sampleDev.coveredByPt 0 vdevLabelSize) = false ∧
      sampleDev.getBuffer 0 vdevLabelSize = some sampleLabel ∧
      zfsWant ≤ ubCount sampleDev.host sampleLabel ubOffsets ∧
      (∀ o n m, sampleDev.setMagic o n m = 0) ∧ (probeZfs sampleDev).1 = 0 :=
  have hcount : zfsWant ≤ ubCount sampleDev.host sampleLabel ubOffsets := by decide
  ⟨rfl, rfl, hcount, fun _ _ _ => rfl,
    probe_zfs_label0 sampleDev sampleLabel rfl rfl hcount fun _ _ _ => rfl⟩

/-! ## 機械の byte 順によらないこと -/

/--
機械の byte 順だけが違う二つの `find_uberblocks` の変数の関係。`seen` は前の label で既に
見つけていたこと。見つけた後の `bswap_endian` は逆になる。
-/
structure UbMirror (seen : Bool) (s t : UbScan) : Prop where
  found : s.found = t.found
  ubOffset : s.ubOffset = t.ubOffset
  swap : seen = true ∨ 0 < s.found → s.swap = !t.swap

/-- 片方で magic がそのまま合うのは、もう片方で byte を入れ替えて合うときである。 -/
theorem hostU64_little_eq_magic (b : Nat → UInt8) (o : Nat) :
    hostU64 .little b o = uberblockMagic ↔ hostU64 .big b o = bswap64 uberblockMagic :=
  ⟨fun h => by rw [hostU64_big, h], fun h => by rw [hostU64_little, h, bswap64_bswap64_magic]⟩

theorem hostU64_little_eq_bswap (b : Nat → UInt8) (o : Nat) :
    hostU64 .little b o = bswap64 uberblockMagic ↔ hostU64 .big b o = uberblockMagic :=
  ⟨fun h => by rw [hostU64_big, h, bswap64_bswap64_magic], fun h => by rw [hostU64_little, h]⟩

theorem ubCheck_mirror {seen : Bool} {s t : UbScan} (h : UbMirror seen s t) (label : Nat → UInt8)
    (o : Nat) : UbMirror seen (ubCheck .little label s o) (ubCheck .big label t o) := by
  rw [ubCheck_eq, ubCheck_eq]
  by_cases hB₁ : hostU64 .big label o = uberblockMagic
  · have hL₂ := (hostU64_little_eq_bswap label o).mpr hB₁
    rw [if_neg (by rw [hL₂]; exact bswap64_magic_ne), if_pos hL₂, if_pos hB₁]
    exact ⟨by simp [h.found], rfl, fun _ => rfl⟩
  · by_cases hB₂ : hostU64 .big label o = bswap64 uberblockMagic
    · rw [if_pos ((hostU64_little_eq_magic label o).mpr hB₂), if_neg hB₁, if_pos hB₂]
      exact ⟨by simp [h.found], rfl, fun _ => rfl⟩
    · rw [if_neg (mt (hostU64_little_eq_magic label o).mp hB₂),
        if_neg (mt (hostU64_little_eq_bswap label o).mp hB₁), if_neg hB₁, if_neg hB₂]
      exact h

theorem foldl_ubCheck_mirror {seen : Bool} (label : Nat → UInt8) : ∀ (os : List Nat) {s t : UbScan},
    UbMirror seen s t →
      UbMirror seen (os.foldl (ubCheck .little label) s) (os.foldl (ubCheck .big label) t)
  | [], _, _, h => h
  | o :: os, _, _, h => by
    rw [List.foldl_cons, List.foldl_cons]
    exact foldl_ubCheck_mirror label os (ubCheck_mirror h label o)

/-- 一つの label の中の走査：前の label で見つけていたなら、`bswap_endian` は初めから逆。 -/
theorem findUberblocks_mirror (seen : Bool) (label : Nat → UInt8) (uo : Int) {swL swB : Bool}
    (h : seen = true → swL = !swB) :
    UbMirror seen (findUberblocks .little label uo swL) (findUberblocks .big label uo swB) :=
  foldl_ubCheck_mirror label ubOffsets ⟨rfl, rfl, fun hs => h (hs.resolve_right (Nat.lt_irrefl 0))⟩

/-- 機械の byte 順だけが違う二つの `probe_zfs` のループの変数の関係。 -/
structure ScanMirror (s t : LabelScan) : Prop where
  found : s.found = t.found
  ub : s.ub = t.ub
  ubOffset : s.ubOffset = t.ubOffset
  offset : s.offset = t.offset
  swap : 0 < s.found → s.swap = !t.swap

/-- 二つのループの結果の関係：同じ `return` か、関係する変数でループを抜ける。 -/
inductive ResultMirror : Except Int LabelScan → Except Int LabelScan → Prop
  | error (rc : Int) : ResultMirror (.error rc) (.error rc)
  | ok {s t : LabelScan} : ScanMirror s t → ResultMirror (.ok s) (.ok t)

theorem probeLabels_mirror (d : ProbeDev) : ∀ (ns : List Nat) (s t : LabelScan), ScanMirror s t →
    ResultMirror (probeLabels { d with host := .little } ns s) (probeLabels { d with host := .big } ns t)
  | [], _, _, h => .ok h
  | n :: ns, s, t, h => by
    simp only [probeLabels]
    by_cases hc : (d.wholeDisk && d.coveredByPt (labelOffset d.size n) vdevLabelSize) = true
    · rw [if_pos hc, if_pos hc]
      exact probeLabels_mirror d ns _ _ ⟨h.found, h.ub, h.ubOffset, rfl, h.swap⟩
    · rw [if_neg hc, if_neg hc]
      rcases d.getBuffer (labelOffset d.size n) vdevLabelSize with _ | label
      · exact .error _
      · have hr := findUberblocks_mirror (decide (0 < s.found)) label s.ubOffset
          (fun hs => h.swap (of_decide_eq_true hs))
        dsimp only
        rw [← h.ubOffset]
        generalize findUberblocks .little label s.ubOffset s.swap = fl at hr ⊢
        generalize findUberblocks .big label s.ubOffset t.swap = fb at hr ⊢
        rw [← hr.found]
        by_cases hpos : 0 < fl.found
        · rw [if_pos hpos, if_pos hpos]
          have hm : ScanMirror
              { s with
                found := s.found + fl.found
                ub := some (label, fl.ubOffset.toNat)
                ubOffset := fl.ubOffset + labelOffset d.size n
                swap := fl.swap
                offset := labelOffset d.size n }
              { t with
                found := t.found + fl.found
                ub := some (label, fb.ubOffset.toNat)
                ubOffset := fb.ubOffset + labelOffset d.size n
                swap := fb.swap
                offset := labelOffset d.size n } :=
            ⟨by rw [h.found], by rw [hr.ubOffset], by rw [hr.ubOffset], rfl, fun _ => hr.swap (.inr hpos)⟩
          by_cases hw : zfsWant ≤ s.found + fl.found
          · rw [if_pos hw, if_pos (h.found ▸ hw)]
            exact .ok hm
          · rw [if_neg hw, if_neg (h.found ▸ hw)]
            exact probeLabels_mirror d ns _ _ hm
        · rw [if_neg hpos, if_neg hpos]
          exact probeLabels_mirror d ns _ _ ⟨h.found, h.ub, hr.ubOffset, rfl,
            fun hs => hr.swap (.inl (decide_eq_true hs))⟩

/-- 逆の byte 順の機械で残す値：UUID の生の byte だけが逆順になる。 -/
def ZfsValue.mirror : ZfsValue → ZfsValue
  | .nvpair p => .nvpair p.mirror
  | v => v

/-- nvlist から残す値は、UUID の生の byte だけが逆順になる。 -/
theorem extractAt_mirror (d : ProbeDev) (o : Int) :
    extractAt { d with host := .big } o = (extractAt { d with host := .little } o).map Probe.mirror := by
  simp only [extractAt]
  rcases d.getBuffer (nvlistOffset o) 4096 with _ | b
  · rfl
  · dsimp only
    rw [zfsExtractGuidName_mirror]

/-- 見つけた uberblock の版は、逆の順と判じた相手の機械で読んでも同じ。 -/
theorem ubVersion_mirror (label : Nat → UInt8) (u : Nat) (swap : Bool) :
    ubVersion .little label u (!swap) = ubVersion .big label u swap := by
  cases swap
  · simp only [ubVersion, Bool.not_false, if_true, Bool.false_eq_true, if_false, hostU64_big]
  · simp only [ubVersion, Bool.not_true, Bool.false_eq_true, if_false, if_true, hostU64_little]

/--
**`probe_zfs` の結果は、UUID の生の byte の並びのほかは機械の byte 順によらない。**

little endian の機械で magic がそのまま合う uberblock は、big endian の機械では byte を
入れ替えて合う。数も位置も同じで、`bswap_endian` だけが逆になり、版はどちらでも同じ数に読まれる。
nvlist の値は `be32toh` と `be64toh` で読むので同じで、`blkid_probe_sprintf_uuid` に渡す
`&nvu_value` の 8 byte だけが逆順になる（`ZfsValue.mirror`）。戻り値はどちらでも同じ。
-/
theorem probe_zfs_host_independent (d : ProbeDev) :
    probeZfs { d with host := .big } =
      ((probeZfs { d with host := .little }).1, (probeZfs { d with host := .little }).2.map ZfsValue.mirror) := by
  have hm := probeLabels_mirror d [0, 1, 2, 3] LabelScan.init LabelScan.init
    ⟨rfl, rfl, rfl, rfl, fun h => absurd h (Nat.lt_irrefl 0)⟩
  unfold probeZfs
  generalize probeLabels { d with host := .little } [0, 1, 2, 3] LabelScan.init = a at hm ⊢
  generalize probeLabels { d with host := .big } [0, 1, 2, 3] LabelScan.init = b at hm ⊢
  cases hm with
  | error rc => rfl
  | ok hm =>
    rename_i s t
    have hfound := hm.found
    dsimp only
    rw [hfound, hm.ub]
    by_cases hf : t.found < zfsWant
    · rw [if_pos hf, if_pos hf]; rfl
    · rw [if_neg hf, if_neg hf]
      rcases t.ub with _ | ⟨label, u⟩
      · rfl
      · dsimp only
        rw [hm.ubOffset, hm.offset, hm.swap (by unfold zfsWant at hf; omega), ubVersion_mirror,
          extractAt_mirror]
        -- 残す値の列を `ZfsValue.mirror` で写すと、nvlist の値だけが写る
        have hv : ∀ vs : List Probe, (vs.map ZfsValue.nvpair).map ZfsValue.mirror =
            (vs.map Probe.mirror).map ZfsValue.nvpair := fun vs => by simp [ZfsValue.mirror]
        split <;> simp [hv, ZfsValue.mirror]

end Blkid.Zfs
