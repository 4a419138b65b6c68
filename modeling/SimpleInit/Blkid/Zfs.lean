import Mathlib.Algebra.Group.Nat.Basic
import Mathlib.Data.List.Basic
import Mathlib.Tactic.PushNeg

/-!
# ZFS の nvlist を歩くループ

blkid の `zfs_extract_guid_name` と `zfs_process_value` を写す。入力は
`blkid_probe_get_buffer` が返す 4096 byte の buffer で、中身は任意である（壊れた、あるいは
悪意のある label も含む）。

* `Endian`、`hostBytes` — 機械の byte 順と、`uint64_t` が記憶の中に並ぶ 8 byte
* `NvCursor` — ループの変数 `nvp`（位置 `off`）と `left` と `directory_level`。
  `off + left = 4096` を欄に持つので、この外の cursor は作れない
* `extractStep` — ループの一回分。読んだ範囲（`reads`）と、probe に残した値（`probes`）を返す
* `zfsExtractGuidName` — ループ全体

C の符号なし演算は `% 2 ^ 64`（`size_t`、`uint64_t`）と `% 2 ^ 32`（`uint32_t`）を明示して写し、
それが実際の差や和に一致すること（wrap も切り捨ても起きないこと）を定理として言う。

## 停止性

`left` が毎回真に減る（`extractStep_left_lt`）。`nvp_size` が 0 の分岐では 8、そうでなければ
`nvp_size ≥ 12` だけ減る。ループ全体は fuel 4096 で回し、それで足りることも示す。

## 主な定理

* `zfs_extract_guid_name_safe` — どんな buffer でもループは止まり、計算は wrap せず、読むのは buffer の中
* `zfsExtractGuidName_mirror` — 機械の byte 順で変わるのは、UUID の生の byte の並びだけ
* `zfs_prefix_names_match` — 鍵の真の接頭辞（空を含む）の名前でも、その鍵の値が probe に残る
-/

namespace Blkid.Zfs

/-! ## buffer と big endian の読み出し -/

/-- `blkid_probe_get_buffer(pr, offset, 4096)` が返す buffer。 -/
structure NvBuf where
  bytes : List UInt8
  length_eq : bytes.length = 4096

/-- `i` 番目の byte。 -/
def byteAt (b : List UInt8) (i : Nat) : Nat := (b.getD i 0).toNat

/-- `be32toh` で読む 32 bit。 -/
def be32 (b : List UInt8) (o : Nat) : Nat :=
  byteAt b o * 2 ^ 24 + byteAt b (o + 1) * 2 ^ 16 + byteAt b (o + 2) * 2 ^ 8 + byteAt b (o + 3)

/-- `be64toh` で読む 64 bit。 -/
def be64 (b : List UInt8) (o : Nat) : Nat := be32 b o * 2 ^ 32 + be32 b (o + 4)

/-- `size_t` の引き算 `a - b`。 -/
def sub64 (a b : Nat) : Nat := (a + 2 ^ 64 - b % 2 ^ 64) % 2 ^ 64

theorem byteAt_lt (b : List UInt8) (i : Nat) : byteAt b i < 256 := UInt8.toNat_lt_size _

theorem be32_lt (b : List UInt8) (o : Nat) : be32 b o < 2 ^ 32 := by
  have := byteAt_lt b o; have := byteAt_lt b (o + 1)
  have := byteAt_lt b (o + 2); have := byteAt_lt b (o + 3)
  unfold be32; omega

/-- 引き算が負にならなければ `sub64` は本当の差である。 -/
theorem sub64_eq {a b : Nat} (h : b ≤ a) (ha : a < 2 ^ 64) : sub64 a b = a - b := by
  unfold sub64
  rw [Nat.mod_eq_of_lt (by omega : b < 2 ^ 64)]
  rw [show a + 2 ^ 64 - b = (a - b) + 2 ^ 64 by omega, Nat.add_mod_right,
    Nat.mod_eq_of_lt (by omega)]

/-! ## 名前の比較 -/

/-- ASCII の文字列を byte の列にしたもの。 -/
def ascii (s : String) : List UInt8 := s.toList.map fun c => c.toNat.toUInt8

/--
`strncmp(name, key, n) == 0` と、そのとき読んだ `name` の byte 数。

`key` は NUL を含まない C の文字列定数で、その NUL は列の終わりで表す。
一致しない byte か、両方の NUL に出会うか、`n` byte 比べたところで止まる。
-/
def strncmpKey (b : List UInt8) (off : Nat) : List UInt8 → Nat → Bool × Nat
  | _, 0 => (true, 0)
  | [], _ + 1 => (byteAt b off == 0, 1)
  | k :: ks, n + 1 =>
    if byteAt b off ≠ k.toNat then (false, 1)
    else
      let r := strncmpKey b (off + 1) ks n
      (r.1, r.2 + 1)

theorem strncmpKey_reads_le (b : List UInt8) (off : Nat) (key : List UInt8) (n : Nat) :
    (strncmpKey b off key n).2 ≤ n := by
  induction key generalizing off n with
  | nil => cases n <;> simp [strncmpKey]
  | cons k ks ih =>
    cases n with
    | zero => simp [strncmpKey]
    | succ n =>
      simp only [strncmpKey]
      split
      · simp
      · have := ih (off + 1) n; simp; omega

/-- 名前の最初の `n` byte が鍵の最初の `n` byte に等しければ（`n` は鍵の長さ以下）、`strncmp` は 0 を返す。 -/
theorem strncmpKey_of_agree : ∀ (key b : List UInt8) (off n : Nat), n ≤ key.length →
    (∀ i < n, byteAt b (off + i) = (key.getD i 0).toNat) → (strncmpKey b off key n).1 = true
  | key, _, _, 0, _, _ => by cases key <;> rfl
  | [], _, _, _ + 1, hn, _ => absurd hn (by simp)
  | k :: ks, b, off, n + 1, hn, h => by
    have h0 := h 0 (Nat.succ_pos n)
    simp only [Nat.add_zero, List.getD_cons_zero] at h0
    simp only [strncmpKey, h0, ne_eq, not_true_eq_false, if_false]
    exact strncmpKey_of_agree ks b (off + 1) n (by simpa using hn) fun i hi => by
      have := h (i + 1) (by omega)
      simpa [Nat.add_assoc, Nat.add_comm 1 i] using this

/-! ## 機械の byte 順 -/

/-- 機械の byte 順。 -/
inductive Endian
  | little
  | big
deriving DecidableEq, Repr

/-- 下位の byte から並べた byte の列が表す数。 -/
def leNum : List Nat → Nat
  | [] => 0
  | x :: xs => x + 256 * leNum xs

/-- `x` の下位 `n` byte を、下位から並べた列。 -/
def leBytes : Nat → Nat → List Nat
  | 0, _ => []
  | n + 1, x => x % 256 :: leBytes n (x / 256)

theorem leBytes_leNum : ∀ (xs : List Nat), (∀ x ∈ xs, x < 256) →
    leBytes xs.length (leNum xs) = xs
  | [], _ => rfl
  | x :: xs, h => by
    have hx := h x (List.mem_cons_self _ _)
    have hm : (x + 256 * leNum xs) % 256 = x := by omega
    have hd : (x + 256 * leNum xs) / 256 = leNum xs := by omega
    rw [List.length_cons, leNum, leBytes, hm, hd,
      leBytes_leNum xs fun y hy => h y (List.mem_cons_of_mem _ hy)]

/-- `uint64_t` の値 `v` が機械の記憶の中に並ぶ 8 byte（`(unsigned char *) &nvu_value`）。 -/
def hostBytes : Endian → Nat → List UInt8
  | .little, v => (leBytes 8 v).map Nat.toUInt8
  | .big, v => ((leBytes 8 v).map Nat.toUInt8).reverse

/-! ## `zfs_process_value` -/

/-- probe に残す値。 -/
inductive Probe
  /-- `blkid_probe_set_label(pr, nvs->nvs_string, nvs_strlen)`。 -/
  | label (s : List UInt8)
  /-- `blkid_probe_sprintf_value(pr, "UUID_SUB", ...)`。 -/
  | uuidSub (v : Nat)
  /-- `blkid_probe_sprintf_uuid(pr, (unsigned char *) &nvu_value, 8, ...)`：生の 8 byte と、書式で書く値。 -/
  | uuid (raw : List UInt8) (v : Nat)
  /-- `blkid_probe_set_block_size(pr, 1U << nvu_value)`。 -/
  | blockSize (n : Nat)
deriving DecidableEq, Repr

/-- `DATA_TYPE_UINT64`、`DATA_TYPE_STRING`、`DATA_TYPE_DIRECTORY`。 -/
def dataTypeUint64 : Nat := 8
def dataTypeString : Nat := 9
def dataTypeDirectory : Nat := 19

/-- `struct nvuint64` を読む分岐：型が `DATA_TYPE_UINT64` なら値を `f` に渡す。 -/
def readUint64 (b : List UInt8) (value : Nat) (f : Nat → Option Probe) :
    List (Nat × Nat) × Option Probe :=
  ([(value, 4), (value + 8, 8)],
    if be32 b value ≠ dataTypeUint64 then none else f (be64 b (value + 8)))

/--
`zfs_process_value(pr, name, namelen, value, max_value_size, directory_level)`。
読んだ範囲と、probe に残した値を返す。

`if ... else if ...` の各条件は `strncmp` から評価されるので、通らなかった分岐の
`strncmp` も名前を読む。`host` は機械の byte 順で、`pool_guid` の UUID の生の byte を決める。
-/
def zfsProcessValue (b : List UInt8) (host : Endian) (name namelen value maxv level : Nat) :
    List (Nat × Nat) × Option Probe :=
  let cName := strncmpKey b name (ascii "name") namelen
  if cName.1 && 12 ≤ maxv && level == 0 then
    let rd := [(name, cName.2), (value, 4), (value + 8, 4)]
    let strlen := be32 b (value + 8)
    if be32 b value ≠ dataTypeString ∨ strlen + 12 > maxv then (rd, none)
    else (rd ++ [(value + 12, strlen)], some (.label ((b.drop (value + 12)).take strlen)))
  else
  let cGuid := strncmpKey b name (ascii "guid") namelen
  let rd := [(name, cName.2), (name, cGuid.2)]
  if cGuid.1 && 16 ≤ maxv && level == 0 then
    let r := readUint64 b value fun v => some (.uuidSub v)
    (rd ++ r.1, r.2)
  else
  let cPool := strncmpKey b name (ascii "pool_guid") namelen
  let rd := rd ++ [(name, cPool.2)]
  if cPool.1 && 16 ≤ maxv && level == 0 then
    let r := readUint64 b value fun v => some (.uuid (hostBytes host v) v)
    (rd ++ r.1, r.2)
  else
  let cAshift := strncmpKey b name (ascii "ashift") namelen
  let rd := rd ++ [(name, cAshift.2)]
  if cAshift.1 && 16 ≤ maxv then
    let r := readUint64 b value fun v => if v < 32 then some (.blockSize (2 ^ v)) else none
    (rd ++ r.1, r.2)
  else (rd, none)

/-! ## ループ -/

/-- ループの変数。`nvp` の位置と `left` の和はいつも buffer の終わりである。 -/
structure NvCursor where
  off : Nat
  left : Nat
  level : Nat
  /-- `nvp` から buffer の終わりまでがちょうど `left` byte。 -/
  span : off + left = 4096

/-- ループに入る前：`nvl->nvl_nvpair` は 12 byte 目から、`left = 4096 - 12`。 -/
def NvCursor.init : NvCursor := ⟨12, 4084, 0, rfl⟩

/-- `namesize = ((uint64_t)nvp_namelen + 3) & ~3`。 -/
def namesize (namelen : Nat) : Nat := (namelen + 3) % 2 ^ 64 / 4 * 4

/-- ディレクトリに入るときの `nvp_size = sizeof(*nvp) + namesize + sizeof(*nvu)`（`uint32_t`）。 -/
def dirNvpSize (ns : Nat) : Nat := (12 + ns + 16) % 2 ^ 64 % 2 ^ 32

/-- ループの一回分の結果。`next` が `none` なのは `break`。 -/
structure Iter where
  next : Option NvCursor
  reads : List (Nat × Nat)
  probes : List Probe

/-- `cont:` から先：`nvp_size > left` なら `break`、でなければ `left -= nvp_size` して進む。 -/
def advance (c : NvCursor) (level size : Nat) : Option NvCursor :=
  if h : size ≤ c.left then
    some ⟨c.off + size, sub64 c.left size, level, by
      have := c.span
      rw [sub64_eq h (by omega)]
      omega⟩
  else none

/-- `while (left > sizeof(*nvp))` の本体。 -/
def extractStep (b : List UInt8) (host : Endian) (c : NvCursor) : Iter :=
  let hdr := [(c.off, 4), (c.off + 8, 4)]
  let size := be32 b c.off
  let namelen := be32 b (c.off + 8)
  let ns := namesize namelen
  if size = 0 then
    if c.level = 0 then ⟨none, hdr, []⟩
    else ⟨advance c (c.level - 1) 8, hdr, []⟩
  else if size > c.left ∨ (ns + 12) % 2 ^ 64 > size then ⟨none, hdr, []⟩
  else
    let maxv := sub64 size (ns + 12)
    let value := c.off + 12 + ns
    if 16 ≤ maxv ∧ be32 b value = dataTypeDirectory then
      ⟨advance c (c.level + 1) (dirNvpSize ns), hdr ++ [(value, 4)], []⟩
    else
      let dirRead := if 16 ≤ maxv then [(value, 4)] else []
      let r := zfsProcessValue b host (c.off + 12) namelen value maxv c.level
      ⟨advance c c.level size, hdr ++ dirRead ++ r.1, r.2.toList⟩

/-- ループを `fuel` 回まで回す。読んだ範囲と probe の値を順につなぐ。 -/
def extractLoop (b : List UInt8) (host : Endian) : Nat → NvCursor → List (Nat × Nat) × List Probe
  | 0, _ => ([], [])
  | fuel + 1, c =>
    if 12 < c.left then
      let it := extractStep b host c
      match it.next with
      | none => (it.reads, it.probes)
      | some c' =>
        let r := extractLoop b host fuel c'
        (it.reads ++ r.1, it.probes ++ r.2)
    else ([], [])

/-- `zfs_extract_guid_name` のループ。 -/
def zfsExtractGuidName (host : Endian) (nv : NvBuf) : List (Nat × Nat) × List Probe :=
  extractLoop nv.bytes host 4096 NvCursor.init

/-! ## 一回分の性質 -/

theorem advance_left {c c' : NvCursor} {level size : Nat} (h : advance c level size = some c') :
    c'.left + size = c.left := by
  unfold advance at h
  split at h
  · next hs =>
    cases h
    have := c.span
    simp only [sub64_eq hs (by omega)]
    omega
  · cases h

theorem namesize_eq {namelen : Nat} (h : namelen < 2 ^ 32) :
    namesize namelen = (namelen + 3) / 4 * 4 := by
  unfold namesize; rw [Nat.mod_eq_of_lt (by omega)]

theorem le_namesize (namelen : Nat) (h : namelen < 2 ^ 32) : namelen ≤ namesize namelen := by
  rw [namesize_eq h]; omega

theorem namesize_lt (namelen : Nat) (h : namelen < 2 ^ 32) : namesize namelen < 2 ^ 33 := by
  rw [namesize_eq h]; omega

theorem dirNvpSize_eq {ns : Nat} (h : 12 + ns + 16 < 2 ^ 32) : dirNvpSize ns = 12 + ns + 16 := by
  unfold dirNvpSize; rw [Nat.mod_eq_of_lt (show 12 + ns + 16 < 2 ^ 64 by omega), Nat.mod_eq_of_lt h]

/-- ループの一回分で C が計算する値が、本当の値に一致する（wrap も切り捨てもない）。 -/
def ArithExact (b : List UInt8) (c : NvCursor) : Prop :=
  let size := be32 b c.off
  let ns := namesize (be32 b (c.off + 8))
  ns = (be32 b (c.off + 8) + 3) / 4 * 4 ∧
    (size ≤ c.left → (ns + 12) % 2 ^ 64 ≤ size →
      ns + 12 ≤ size ∧ sub64 size (ns + 12) = size - (ns + 12) ∧
        (16 ≤ sub64 size (ns + 12) → dirNvpSize ns = 12 + ns + 16 ∧ dirNvpSize ns ≤ c.left))

theorem arithExact (b : List UInt8) (c : NvCursor) : ArithExact b c := by
  have hs := be32_lt b c.off
  have hn := be32_lt b (c.off + 8)
  have hns := namesize_lt _ hn
  have hspan := c.span
  refine ⟨namesize_eq hn, fun hle hg => ?_⟩
  rw [Nat.mod_eq_of_lt (by omega)] at hg
  rw [sub64_eq hg (by omega)]
  exact ⟨hg, rfl, fun h16 => ⟨dirNvpSize_eq (by omega), by rw [dirNvpSize_eq (by omega)]; omega⟩⟩

/-- **毎回 `left` は真に減る。** -/
theorem extractStep_left_lt (b : List UInt8) (host : Endian) (c : NvCursor) {c' : NvCursor}
    (h : (extractStep b host c).next = some c') : c'.left < c.left := by
  obtain ⟨_, hex⟩ := arithExact b c
  unfold extractStep at h
  simp only at h
  split at h
  · split at h
    · cases h
    · have := advance_left h; omega
  · split at h
    · cases h
    · next hg =>
      push_neg at hg
      obtain ⟨h1, h2, h3⟩ := hex hg.1 hg.2
      split at h
      · next hd => have := advance_left h; have := (h3 hd.1).1; omega
      · have := advance_left h; omega

/-! ## 読む範囲 -/

/-- 読んだ範囲が `[lo, hi)` に収まる。 -/
def Within (lo hi : Nat) (rs : List (Nat × Nat)) : Prop := ∀ r ∈ rs, lo ≤ r.1 ∧ r.1 + r.2 ≤ hi

theorem within_append {lo hi : Nat} {rs rs' : List (Nat × Nat)} (h : Within lo hi rs)
    (h' : Within lo hi rs') : Within lo hi (rs ++ rs') := by
  intro r hr
  rcases List.mem_append.mp hr with hr | hr
  · exact h r hr
  · exact h' r hr

theorem within_mono {lo hi lo' hi' : Nat} {rs : List (Nat × Nat)} (h : Within lo hi rs)
    (hl : lo' ≤ lo) (hh : hi ≤ hi') : Within lo' hi' rs :=
  fun r hr => ⟨le_trans hl (h r hr).1, le_trans (h r hr).2 hh⟩

/-- 名前の読み出しは `[name, name + namelen)` に収まる。 -/
theorem within_strncmpKey (b : List UInt8) (name namelen : Nat) (key : List UInt8) :
    Within name (name + namelen) [(name, (strncmpKey b name key namelen).2)] := by
  intro r hr
  simp only [List.mem_singleton] at hr
  subst hr
  exact ⟨le_refl _, by have := strncmpKey_reads_le b name key namelen; simp; omega⟩

theorem within_readUint64 (b : List UInt8) (value maxv : Nat) (f : Nat → Option Probe)
    (h : 16 ≤ maxv) : Within value (value + maxv) (readUint64 b value f).1 := by
  intro r hr
  simp only [readUint64, List.mem_cons, List.mem_singleton, List.not_mem_nil, or_false] at hr
  rcases hr with rfl | rfl <;> simp <;> omega

/--
`zfs_process_value` が読むのは、名前 `[name, name + namelen)` と、値 `[value, value + maxv)` の中だけ。
-/
theorem zfsProcessValue_within (b : List UInt8) (host : Endian) (name namelen value maxv level : Nat)
    (hn : name + namelen ≤ value) :
    Within name (value + maxv) (zfsProcessValue b host name namelen value maxv level).1 := by
  have hk : ∀ key, Within name (value + maxv) [(name, (strncmpKey b name key namelen).2)] :=
    fun key => within_mono (within_strncmpKey b name namelen key) (le_refl _) (by omega)
  have hv : ∀ f, 16 ≤ maxv → Within name (value + maxv) (readUint64 b value f).1 :=
    fun f h => within_mono (within_readUint64 b value maxv f h) (by omega) (le_refl _)
  unfold zfsProcessValue
  simp only [Bool.and_eq_true, decide_eq_true_eq, beq_iff_eq]
  split
  · next hc =>
    have hrd : Within name (value + maxv)
        [(name, (strncmpKey b name (ascii "name") namelen).2), (value, 4), (value + 8, 4)] := by
      intro r hr
      simp only [List.mem_cons, List.mem_singleton, List.not_mem_nil, or_false] at hr
      rcases hr with rfl | rfl | rfl
      · exact hk (ascii "name") _ (List.mem_singleton_self _)
      · simp; omega
      · simp; omega
    split
    · exact hrd
    · next hl =>
      push_neg at hl
      refine within_append hrd ?_
      intro r hr; simp at hr; subst hr; simp; omega
  · have h2 : Within name (value + maxv)
        [(name, (strncmpKey b name (ascii "name") namelen).2),
          (name, (strncmpKey b name (ascii "guid") namelen).2)] := by
      intro r hr
      simp only [List.mem_cons, List.mem_singleton, List.not_mem_nil, or_false] at hr
      rcases hr with rfl | rfl
      · exact hk (ascii "name") _ (List.mem_singleton_self _)
      · exact hk (ascii "guid") _ (List.mem_singleton_self _)
    split
    · next hc => exact within_append h2 (hv _ hc.1.2)
    · split
      · next hc => exact within_append (within_append h2 (hk _)) (hv _ hc.1.2)
      · split
        · next hc => exact within_append (within_append (within_append h2 (hk _)) (hk _)) (hv _ hc.2)
        · exact within_append (within_append h2 (hk _)) (hk _)

/-- **ループの一回分が読むのは、`nvp` から buffer の終わりまでの中だけ。** -/
theorem extractStep_within (b : List UInt8) (host : Endian) (c : NvCursor) (hl : 12 < c.left) :
    Within c.off 4096 (extractStep b host c).reads := by
  obtain ⟨_, hex⟩ := arithExact b c
  have hspan := c.span
  have hn := be32_lt b (c.off + 8)
  have hns := le_namesize _ hn
  have hhdr : Within c.off 4096 [(c.off, 4), (c.off + 8, 4)] := by
    intro r hr
    simp only [List.mem_cons, List.mem_singleton, List.not_mem_nil, or_false] at hr
    rcases hr with rfl | rfl <;> simp <;> omega
  unfold extractStep
  simp only
  split
  · split <;> exact hhdr
  · split
    · exact hhdr
    · next hg =>
      push_neg at hg
      obtain ⟨h1, h2, h3⟩ := hex hg.1 hg.2
      have hval : c.off + 12 + namesize (be32 b (c.off + 8)) + sub64 (be32 b c.off)
          (namesize (be32 b (c.off + 8)) + 12) ≤ 4096 := by rw [h2]; omega
      have hv4 : 16 ≤ sub64 (be32 b c.off) (namesize (be32 b (c.off + 8)) + 12) →
          Within c.off 4096 [(c.off + 12 + namesize (be32 b (c.off + 8)), 4)] := by
        intro h16 r hr; simp at hr; subst hr; simp; omega
      split
      · next hd => exact within_append hhdr (hv4 hd.1)
      · refine within_append (within_append hhdr ?_) ?_
        · split
          · next h16 => exact hv4 h16
          · intro r hr; simp at hr
        · exact within_mono (zfsProcessValue_within b host _ _ _ _ _ (by omega)) (by omega) hval

/-! ## ループ全体 -/

theorem extractLoop_within (b : List UInt8) (host : Endian) (fuel : Nat) (c : NvCursor) :
    Within 0 4096 (extractLoop b host fuel c).1 := by
  induction fuel generalizing c with
  | zero => intro r hr; simp [extractLoop] at hr
  | succ fuel ih =>
    unfold extractLoop
    split
    · next hl =>
      have hs := within_mono (extractStep_within b host c hl) (Nat.zero_le _) (le_refl _)
      dsimp only
      split
      · exact hs
      · exact within_append hs (ih _)
    · intro r hr; simp at hr

/-- `left` 以上の fuel があれば、それ以上 fuel を足しても結果は変わらない。 -/
theorem extractLoop_succ (b : List UInt8) (host : Endian) (fuel : Nat) (c : NvCursor) (h : c.left ≤ fuel) :
    extractLoop b host (fuel + 1) c = extractLoop b host fuel c := by
  induction fuel generalizing c with
  | zero => simp [extractLoop, show ¬ 12 < c.left by omega]
  | succ fuel ih =>
    conv_lhs => unfold extractLoop
    conv_rhs => unfold extractLoop
    split
    · dsimp only
      split
      · rfl
      · next c' hc' =>
        have := extractStep_left_lt b host c hc'
        rw [ih c' (by omega)]
    · rfl

theorem extractLoop_fuel (b : List UInt8) (host : Endian) (c : NvCursor) (fuel : Nat) (h : c.left ≤ fuel) :
    ∀ k, extractLoop b host (fuel + k) c = extractLoop b host fuel c := by
  intro k
  induction k with
  | zero => rfl
  | succ k ih => rw [← Nat.add_assoc, extractLoop_succ b host _ c (by omega), ih]

/--
**`zfs_extract_guid_name` の nvpair ループは安全に止まる。**

4096 byte の buffer の中身が何であっても、

1. ループを回るたびに `left` は真に減る。だから 4084 回以内に止まり、fuel をいくら足しても
   結果は変わらない
2. `namesize`、`max_value_size`、ディレクトリで短くした `nvp_size` は wrap も切り捨てもなく
   計算される（`ArithExact`）
3. 読むのはすべて buffer の中：12 byte の nvpair の頭、`strncmp` が比べる名前の byte、
   nvdirectory の型、nvstring の頭と `nvs_strlen` byte の label、nvuint64 の値
-/
theorem zfs_extract_guid_name_safe (host : Endian) (nv : NvBuf) :
    (∀ c c', (extractStep nv.bytes host c).next = some c' → c'.left < c.left) ∧
      (∀ c, ArithExact nv.bytes c) ∧
      (∀ c, 12 < c.left → Within 0 nv.bytes.length (extractStep nv.bytes host c).reads) ∧
      Within 0 nv.bytes.length (zfsExtractGuidName host nv).1 ∧
      ∀ k, extractLoop nv.bytes host (4096 + k) NvCursor.init = zfsExtractGuidName host nv := by
  rw [nv.length_eq]
  exact ⟨fun c _ h => extractStep_left_lt nv.bytes host c h, arithExact nv.bytes,
    fun c hl => within_mono (extractStep_within nv.bytes host c hl) (Nat.zero_le _) (le_refl _),
    extractLoop_within nv.bytes host 4096 NvCursor.init,
    extractLoop_fuel nv.bytes host NvCursor.init 4096 (by decide)⟩

/-! ## 機械の byte 順で変わるもの

nvlist の数はどれも `be32toh` と `be64toh` で読むので、機械の byte 順によらない。変わるのは
`blkid_probe_sprintf_uuid` に渡す `&nvu_value` の 8 byte の並びだけで、二つの機械で逆順になる。
-/

/-- 逆の byte 順の機械で残す値：UUID の生の byte だけが逆順になる。 -/
def Probe.mirror : Probe → Probe
  | .uuid raw v => .uuid raw.reverse v
  | p => p

theorem hostBytes_big (v : Nat) : hostBytes .big v = (hostBytes .little v).reverse := rfl

/-- `zfs_process_value` は、読む範囲も残す値も同じで、UUID の生の byte だけが逆順になる。 -/
theorem zfsProcessValue_mirror (b : List UInt8) (name namelen value maxv level : Nat) :
    zfsProcessValue b .big name namelen value maxv level =
      ((zfsProcessValue b .little name namelen value maxv level).1,
        (zfsProcessValue b .little name namelen value maxv level).2.map Probe.mirror) := by
  simp only [zfsProcessValue, readUint64]
  split_ifs <;> rfl

theorem toList_map_mirror (o : Option Probe) : (o.map Probe.mirror).toList = o.toList.map Probe.mirror := by
  cases o <;> rfl

theorem extractStep_mirror (b : List UInt8) (c : NvCursor) :
    extractStep b .big c =
      { extractStep b .little c with probes := (extractStep b .little c).probes.map Probe.mirror } := by
  simp only [extractStep, zfsProcessValue_mirror]
  split_ifs <;> simp only [toList_map_mirror, List.map_nil]

theorem extractLoop_mirror (b : List UInt8) : ∀ (fuel : Nat) (c : NvCursor),
    extractLoop b .big fuel c =
      ((extractLoop b .little fuel c).1, (extractLoop b .little fuel c).2.map Probe.mirror)
  | 0, _ => rfl
  | fuel + 1, c => by
    simp only [extractLoop, extractStep_mirror]
    split
    · split <;> simp [extractLoop_mirror b fuel]
    · rfl

/-- **`zfs_extract_guid_name` は機械の byte 順によらず同じ範囲を読み、UUID の生の byte だけが逆順になる。** -/
theorem zfsExtractGuidName_mirror (nv : NvBuf) :
    zfsExtractGuidName .big nv =
      ((zfsExtractGuidName .little nv).1, (zfsExtractGuidName .little nv).2.map Probe.mirror) :=
  extractLoop_mirror nv.bytes 4096 NvCursor.init

/-! ## 鍵の接頭辞の名前

`zfs_process_value` は名前を `strncmp(name, key, namelen)` で比べる。比べるのは名前の長さ分だけなので、
名前が鍵の真の接頭辞（空の名前も含む）でも 0 が返り、その鍵の分岐に入る（`strncmpKey_of_agree`）。
-/

/-- big endian の 32 bit。 -/
def be32Bytes (n : Nat) : List UInt8 :=
  [n / 2 ^ 24 % 256, n / 2 ^ 16 % 256, n / 2 ^ 8 % 256, n % 256].map Nat.toUInt8

/-- 名前が空、`pool`、`as` の三つの nvpair と、終わりの印。 -/
def prefixNamesList : List UInt8 :=
  be32Bytes 0 ++ be32Bytes 0 ++ be32Bytes 0 ++
  -- 12：名前の無い nvpair。値は長さ 4 の nvstring "tank"
  be32Bytes 28 ++ be32Bytes 0 ++ be32Bytes 0 ++
    be32Bytes dataTypeString ++ be32Bytes 1 ++ be32Bytes 4 ++ ascii "tank" ++
  -- 40：名前 "pool" の nvpair。値は 42 の nvuint64
  be32Bytes 32 ++ be32Bytes 0 ++ be32Bytes 4 ++ ascii "pool" ++
    be32Bytes dataTypeUint64 ++ be32Bytes 1 ++ be32Bytes 0 ++ be32Bytes 42 ++
  -- 72：名前 "as"（4 byte に詰める）の nvpair。値は 12 の nvuint64
  be32Bytes 32 ++ be32Bytes 0 ++ be32Bytes 2 ++ ascii "as" ++ [0, 0] ++
    be32Bytes dataTypeUint64 ++ be32Bytes 1 ++ be32Bytes 0 ++ be32Bytes 12 ++
  -- 104：`nvp_size` が 0 で、ループは終わる
  be32Bytes 0

/-- `prefixNamesList` を 4096 byte に伸ばした buffer。 -/
def prefixNamesBuf : NvBuf :=
  ⟨prefixNamesList ++ List.replicate (4096 - prefixNamesList.length) 0, by
    rw [List.length_append, List.length_replicate]; exact Nat.add_sub_cancel' (by decide)⟩

/--
**鍵の真の接頭辞の名前の nvpair も、その鍵の値を probe に残す。**

どの buffer でも、名前の最初の `namelen` byte が鍵の最初の `namelen` byte に等しく、`namelen` が鍵の
長さ以下なら、その鍵の `strncmp` は 0 を返す。たとえば名前が空、`pool`、`as` の nvpair だけを持つ
nvlist から、`zfs_extract_guid_name` はどの機械でも label "tank"、UUID 42（生の byte は 42 を
その機械の順に並べた 8 byte）、block size 4096 を残す。名前がちょうど `name`、`pool_guid`、
`ashift` の nvpair は一つも無い。
-/
theorem zfs_prefix_names_match :
    (∀ (key b : List UInt8) (off n : Nat), n ≤ key.length →
      (∀ i < n, byteAt b (off + i) = (key.getD i 0).toNat) → (strncmpKey b off key n).1 = true) ∧
    ∀ host, (zfsExtractGuidName host prefixNamesBuf).2 =
      [.label (ascii "tank"), .uuid (hostBytes host 42) 42, .blockSize 4096] := by
  refine ⟨strncmpKey_of_agree, fun host => ?_⟩
  have h : (zfsExtractGuidName .little prefixNamesBuf).2 =
      [.label (ascii "tank"), .uuid (hostBytes .little 42) 42, .blockSize 4096] := by decide
  cases host
  · exact h
  · rw [zfsExtractGuidName_mirror, h]; rfl

end Blkid.Zfs
