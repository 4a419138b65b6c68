import Mathlib.Data.List.Forall2

/-!
# `linux_config` を confd から読む

`linux_config_new` と `linux_config_new_from_confd` を写す。`linux_config_new` は 0 で埋めた
`linux_config` に PCD の load address を入れ、`linux_config_new_from_confd` はその上に confd の
`<key>.*` を読む。範囲（`linux_mem_region`）は `get_region_confd` が `base`/`start` と
`size`/`end` から読み、`<key>.memory` の項目は `get_memory_confd` が `cfg->memory` の長さまで読む。
load address は `load_custom_address` が真のときだけ confd から読む。`<key>.memory` の項目の名前は
`confd_ls` で読むが、範囲そのものは `get_region_confd(&cfg->memory[i], key, ks[i])` で `key` と
名前から読む。

confd の client（`src/confd/client.c`）、`AsciiStrCpyS`、PCD、`cfg->memory` の長さは `src/` に
無いので、`Confd` と `Platform` で与える。

## 鍵になる並び

`get_region_confd` は範囲を変えないか、`start` も `end` も正の範囲にする（`regionOk_getRegionConfd`）。
`get_memory_confd` のループは、`i` 番目の項目で `cfg->memory[i]` だけを書き、その前の項目には
触らない（`List.set_append_right`）。そこで、書き終えた項目の列を `pre` とする形でループを
帰納法で閉じる（`getMemoryLoop_append`）。

## 主な定理

* `get_memory_confd_regions` — `get_memory_confd` は `i` 番目の項目を `cfg->memory[i]` に読み、
  項目が `cfg->memory` より多いときだけ警告を一つ出す
* `linux_config_from_confd_regions` — 読んだ config の範囲は、どれも初めの値のままか正の範囲で、
  load address は `load_custom_address` が偽なら PCD の値のまま
-/

namespace Linux

/-! ## データ -/

/-- `linux_mem_region`：`start` から `end` まで。 -/
structure MemRegion where
  start : Int
  «end» : Int
deriving DecidableEq, Repr

/-- `AllocateZeroPool` の後の範囲。 -/
def MemRegion.zero : MemRegion := ⟨0, 0⟩

/-- `linux_load_from` の `type`。`unset` は `AllocateZeroPool` の 0。 -/
inductive LoadType
  | unset
  | locate
deriving DecidableEq, Repr

/-- `linux_load_from`。 -/
structure LoadFrom where
  locate : List Char
  enabled : Bool
  type : LoadType
deriving DecidableEq, Repr

def LoadFrom.zero : LoadFrom := ⟨[], false, .unset⟩

/-- `cfg->load_address`。 -/
structure LoadAddress where
  load : MemRegion
  kernel : MemRegion
  initrd : MemRegion
  fdt : MemRegion
deriving DecidableEq, Repr

/-- `cfg->info`。 -/
structure Info where
  socId : Int
  socRev : Int
  foundryId : Int
  variantMajor : Int
  variantMinor : Int
  variantId : Int
  subtypeId : Int
  subtypeDdr : Int
deriving DecidableEq, Repr

def Info.zero : Info := ⟨0, 0, 0, 0, 0, 0, 0, 0⟩

/-- `cfg->arch`。`unset` は `AllocateZeroPool` の 0。 -/
inductive Arch
  | unset
  | uefi
deriving DecidableEq, Repr

/-- `linux_config` のうち、ここの関数が読み書きする項目。 -/
structure LinuxConfig where
  arch : Arch
  useUefi : Bool
  dtbId : Int
  dtboId : Int
  cmdline : List Char
  abootimg : LoadFrom
  kernel : LoadFrom
  initrd : LoadFrom
  dtbo : LoadFrom
  dtb : LoadFrom
  splash : MemRegion
  memory : List MemRegion
  skipDtb : Bool
  skipDtbo : Bool
  skipInitrd : Bool
  skipEfiMemoryMap : Bool
  skipKfdtMemory : Bool
  skipKfdtCmdline : Bool
  loadCustomAddress : Bool
  loadAddress : LoadAddress
  info : Info
deriving DecidableEq, Repr

/-- `AllocateZeroPool(sizeof(linux_config))`：`cfg->memory` の長さは `n`。 -/
def LinuxConfig.zero (n : Nat) : LinuxConfig where
  arch := .unset
  useUefi := false
  dtbId := 0
  dtboId := 0
  cmdline := []
  abootimg := .zero
  kernel := .zero
  initrd := .zero
  dtbo := .zero
  dtb := .zero
  splash := .zero
  memory := List.replicate n .zero
  skipDtb := false
  skipDtbo := false
  skipInitrd := false
  skipEfiMemoryMap := false
  skipKfdtMemory := false
  skipKfdtCmdline := false
  loadCustomAddress := false
  loadAddress := ⟨.zero, .zero, .zero, .zero⟩
  info := .zero

/-- confd の client の答え。引数は `(base, path, ...)` の順で、最後が既定値。 -/
structure Confd where
  /-- `confd_get_string_base(base, path, NULL)`：無ければ `none` -/
  getStringBase : List Char → List Char → Option (List Char)
  /-- `confd_get_sstring_base(base, path, NULL, buf, size)` が書いた後の `buf` -/
  getSstringBase : List Char → List Char → List Char → List Char
  /-- `confd_get_integer_base(base, path, def)` -/
  getIntegerBase : List Char → List Char → Int → Int
  /-- `confd_get_integer_dict(base, key, path, def)` -/
  getIntegerDict : List Char → List Char → List Char → Int → Int
  /-- `confd_get_boolean_base(base, path, def)` -/
  getBooleanBase : List Char → List Char → Bool → Bool
  /-- `confd_ls(path)`：`NULL` なら `none` -/
  ls : List Char → Option (List (List Char))

/-- firmware の側：`AllocateZeroPool` の成否、`ARRAY_SIZE(cfg->memory)`、PCD、`AsciiStrCpyS`。 -/
structure Platform where
  allocateZeroPool : Bool
  memorySize : Nat
  pcdBootCustomLoadAddress : Bool
  /-- `PcdBoot{Load,Kernel,Ramdisk,Fdt}Address{Start,End}` -/
  pcdLoadAddress : LoadAddress
  /-- `AsciiStrCpyS(dest, ..., src)` が書いた後の `dest` -/
  asciiStrCpyS : List Char → List Char → List Char

/-! ## 関数 -/

/-- `get_from_confd(from, key, sub)`。 -/
def getFromConfd (c : Confd) (p : Platform) (lf : LoadFrom) (key sub : List Char) : LoadFrom :=
  match c.getStringBase key sub with
  | none => lf
  | some s => { locate := p.asciiStrCpyS lf.locate s, enabled := true, type := .locate }

/--
`get_region_confd(reg, key, sub)`：`base` と `start` のどちらか一つ、`size` と `end` のどちらか
一つだけが正のときに、`reg` を書く。
-/
def getRegionConfd (c : Confd) (reg : MemRegion) (key sub : List Char) : MemRegion :=
  let base := c.getIntegerDict key sub "base".toList 0
  let size := c.getIntegerDict key sub "size".toList 0
  let start := c.getIntegerDict key sub "start".toList 0
  let «end» := c.getIntegerDict key sub "end".toList 0
  if (base ≤ 0 ∧ start ≤ 0) ∨ (size ≤ 0 ∧ «end» ≤ 0) then reg
  else if (base > 0 ∧ start > 0) ∨ (size > 0 ∧ «end» > 0) then reg
  else
    let s := if start > 0 then start else base
    ⟨s, if «end» > 0 then «end» else s + size⟩

def tooManyMemoryRegionItems : String := "too many memory region items"

/-- `get_memory_confd` の `for` ループ：`i` 番目から。返すのは `cfg->memory` と警告。 -/
def getMemoryLoop (c : Confd) (key : List Char) (i : Nat) :
    List (List Char) → List MemRegion → List MemRegion × List String
  | [], mem => (mem, [])
  | k :: ks, mem =>
    if i ≥ mem.length then (mem, [tooManyMemoryRegionItems])
    else getMemoryLoop c key (i + 1) ks (mem.set i (getRegionConfd c (mem.getD i .zero) key k))

/-- `get_memory_confd(cfg, key)`：`<key>.memory` の項目を `cfg->memory` に読む。 -/
def getMemoryConfd (c : Confd) (key : List Char) (mem : List MemRegion) : List MemRegion × List String :=
  match c.ls (key ++ ".memory".toList) with
  | none => (mem, [])
  | some ks => getMemoryLoop c key 0 ks mem

/-- `get_boot_addresses_pcd(cfg)`。 -/
def getBootAddressesPcd (p : Platform) (cfg : LinuxConfig) : LinuxConfig :=
  { cfg with loadCustomAddress := p.pcdBootCustomLoadAddress, loadAddress := p.pcdLoadAddress }

/-- `load_boolean(key, sub, b)`。 -/
def loadBoolean (c : Confd) (key sub : List Char) (b : Bool) : Bool :=
  c.getBooleanBase key sub b

/-- `linux_config_new()`：`AllocateZeroPool` が失敗すれば `NULL`。 -/
def linuxConfigNew (p : Platform) : Option LinuxConfig :=
  if p.allocateZeroPool then
    some <| getBootAddressesPcd p
      { LinuxConfig.zero p.memorySize with arch := .uefi, useUefi := true, dtbId := -1, dtboId := -1 }
  else none

/-- `linux_config_new_from_confd` の本体：`linux_config_new` が返した `cfg` に confd を読む。 -/
def loadFromConfd (c : Confd) (p : Platform) (key : List Char) (cfg : LinuxConfig) : LinuxConfig :=
  let cfg := { cfg with
    cmdline := c.getSstringBase key "cmdline".toList cfg.cmdline
    abootimg := getFromConfd c p cfg.abootimg key "abootimg".toList
    kernel := getFromConfd c p cfg.kernel key "kernel".toList
    initrd := getFromConfd c p cfg.initrd key "initrd".toList
    dtbo := getFromConfd c p cfg.dtbo key "dtbo".toList
    dtb := getFromConfd c p cfg.dtb key "dtb".toList
    splash := getRegionConfd c cfg.splash key "splash".toList
    memory := (getMemoryConfd c key cfg.memory).1
    useUefi := loadBoolean c key "use_uefi".toList cfg.useUefi
    skipDtb := loadBoolean c key "skip_dtb".toList cfg.skipDtb
    skipDtbo := loadBoolean c key "skip_dtbo".toList cfg.skipDtbo
    skipInitrd := loadBoolean c key "skip_initrd".toList cfg.skipInitrd
    skipEfiMemoryMap := loadBoolean c key "skip_efi_memory_map".toList cfg.skipEfiMemoryMap
    skipKfdtMemory := loadBoolean c key "skip_kernel_fdt_memory".toList cfg.skipKfdtMemory
    skipKfdtCmdline := loadBoolean c key "skip_kernel_fdt_cmdline".toList cfg.skipKfdtCmdline
    loadCustomAddress := loadBoolean c key "load_custom_address".toList cfg.loadCustomAddress
    dtbId := c.getIntegerBase key "dtb_id".toList (-1)
    dtboId := c.getIntegerBase key "dtbo_id".toList (-1)
    info := {
      socId := c.getIntegerBase key "soc_id".toList 0
      socRev := c.getIntegerBase key "soc_rev".toList 0
      foundryId := c.getIntegerBase key "foundry_id".toList 0
      variantMajor := c.getIntegerBase key "variant_major".toList 0
      variantMinor := c.getIntegerBase key "variant_minor".toList 0
      variantId := c.getIntegerBase key "variant_id".toList 0
      subtypeId := c.getIntegerBase key "subtype_id".toList 0
      subtypeDdr := c.getIntegerBase key "subtype_ddr".toList 0 } }
  if cfg.loadCustomAddress then
    { cfg with loadAddress := {
        load := getRegionConfd c cfg.loadAddress.load key "address.load".toList
        kernel := getRegionConfd c cfg.loadAddress.kernel key "address.kernel".toList
        initrd := getRegionConfd c cfg.loadAddress.initrd key "address.initrd".toList
        fdt := getRegionConfd c cfg.loadAddress.fdt key "address.dtb".toList } }
  else cfg

/-- `linux_config_new_from_confd(key)`。 -/
def linuxConfigNewFromConfd (c : Confd) (p : Platform) (key : List Char) : Option LinuxConfig :=
  (linuxConfigNew p).map (loadFromConfd c p key)

/-! ## `get_region_confd` -/

/-- `r` は `init` のままか、`start` も `end` も正の範囲。 -/
def RegionOk (init r : MemRegion) : Prop :=
  r = init ∨ (0 < r.start ∧ 0 < r.«end»)

/-- `get_region_confd` は範囲を変えないか、`start` も `end` も正の範囲を書く。 -/
theorem regionOk_getRegionConfd (c : Confd) (reg : MemRegion) (key sub : List Char) :
    RegionOk reg (getRegionConfd c reg key sub) := by
  unfold getRegionConfd
  dsimp only
  split_ifs <;> first | exact .inl rfl | exact .inr ⟨by dsimp only; omega, by dsimp only; omega⟩

theorem RegionOk.getRegionConfd {init reg : MemRegion} (h : RegionOk init reg) (c : Confd)
    (key sub : List Char) : RegionOk init (Linux.getRegionConfd c reg key sub) := by
  rcases regionOk_getRegionConfd c reg key sub with e | hpos
  · rw [e]; exact h
  · exact .inr hpos

/-! ## `get_memory_confd` -/

theorem getD_append_length (pre rest : List MemRegion) (r d : MemRegion) :
    (pre ++ r :: rest).getD pre.length d = r := by
  simp only [List.getD_eq_getElem?_getD, List.getElem?_append_right le_rfl, Nat.sub_self,
    List.getElem?_cons_zero, Option.getD_some]

/--
**ループの形。** 書き終えた項目を `pre` とすると、ループは残りの項目 `rest` の前から順に
項目の名前を読み、名前が `rest` より多いときだけ警告を出す。
-/
theorem getMemoryLoop_append (c : Confd) (key : List Char) :
    ∀ (ks : List (List Char)) (pre rest : List MemRegion),
      getMemoryLoop c key pre.length ks (pre ++ rest) =
        (pre ++ (List.zipWith (fun r k => getRegionConfd c r key k) rest ks ++ rest.drop ks.length),
          if rest.length < ks.length then [tooManyMemoryRegionItems] else [])
  | [], pre, rest => by simp [getMemoryLoop]
  | k :: ks, pre, [] => by simp [getMemoryLoop]
  | k :: ks, pre, r :: rest => by
    have hset : (pre ++ r :: rest).set pre.length (getRegionConfd c ((pre ++ r :: rest).getD pre.length .zero) key k) =
        (pre ++ [getRegionConfd c r key k]) ++ rest := by
      rw [getD_append_length, List.set_append_right _ _ le_rfl, Nat.sub_self]
      simp
    have ih := getMemoryLoop_append c key ks (pre ++ [getRegionConfd c r key k]) rest
    rw [List.length_append, List.length_singleton] at ih
    simp only [getMemoryLoop, List.length_append, List.length_cons, ge_iff_le, hset, ih]
    simp

/-- 範囲の列の各項目が `RegionOk` なら、`get_memory_confd` の後も各項目が `RegionOk`。 -/
theorem forall₂_regionOk_zipWith (c : Confd) (key : List Char) {init mem : List MemRegion}
    (h : List.Forall₂ RegionOk init mem) : ∀ ks : List (List Char),
      List.Forall₂ RegionOk init
        (List.zipWith (fun r k => getRegionConfd c r key k) mem ks ++ mem.drop ks.length) := by
  induction h with
  | nil => intro ks; simp
  | cons hab _ ih =>
    rintro (_ | ⟨k, ks⟩)
    · simpa using List.Forall₂.cons hab ‹_›
    · exact .cons (hab.getRegionConfd c key k) (ih ks)

theorem forall₂_regionOk_getMemoryConfd (c : Confd) (key : List Char) {init mem : List MemRegion}
    (h : List.Forall₂ RegionOk init mem) : List.Forall₂ RegionOk init (getMemoryConfd c key mem).1 := by
  unfold getMemoryConfd
  split
  · exact h
  · rw [← List.nil_append mem, ← List.length_nil, getMemoryLoop_append]
    exact forall₂_regionOk_zipWith c key h _

/--
**`get_memory_confd` が読むもの。**

`<key>.memory` を `confd_ls` で読めなければ何もしない。読めれば、`i` 番目の名前 `ks[i]` で
`cfg->memory[i]` を `get_region_confd(&cfg->memory[i], key, ks[i])` で読む。読むのは名前の数と
`cfg->memory` の長さの小さい方まで、残りの項目はそのまま、長さは変わらない。警告
`too many memory region items` は、名前が `cfg->memory` より多いときに一度だけ出る。
-/
theorem get_memory_confd_regions (c : Confd) (key : List Char) (mem : List MemRegion) :
    getMemoryConfd c key mem =
      match c.ls (key ++ ".memory".toList) with
      | none => (mem, [])
      | some ks =>
        (List.zipWith (fun r k => getRegionConfd c r key k) mem ks ++ mem.drop ks.length,
          if mem.length < ks.length then [tooManyMemoryRegionItems] else []) := by
  unfold getMemoryConfd
  split
  · rfl
  · simpa using getMemoryLoop_append c key _ [] mem

/-! ## `linux_config_new_from_confd` -/

/-- `load_address` の四つの範囲が、それぞれ `init` の範囲について `RegionOk`。 -/
structure LoadAddress.Ok (init la : LoadAddress) : Prop where
  load : RegionOk init.load la.load
  kernel : RegionOk init.kernel la.kernel
  initrd : RegionOk init.initrd la.initrd
  fdt : RegionOk init.fdt la.fdt

/-- 読んだ config の範囲：どれも初めの値のままか、`start` も `end` も正。 -/
structure RegionsOk (p : Platform) (cfg : LinuxConfig) : Prop where
  splash : RegionOk .zero cfg.splash
  memory : List.Forall₂ RegionOk (List.replicate p.memorySize .zero) cfg.memory
  loadAddress : LoadAddress.Ok p.pcdLoadAddress cfg.loadAddress
  pcd : cfg.loadCustomAddress = false → cfg.loadAddress = p.pcdLoadAddress

theorem linuxConfigNew_eq_some {p : Platform} {cfg : LinuxConfig} (h : linuxConfigNew p = some cfg) :
    cfg.splash = .zero ∧ cfg.memory = List.replicate p.memorySize .zero ∧
      cfg.loadAddress = p.pcdLoadAddress := by
  unfold linuxConfigNew at h
  split at h
  · cases h; exact ⟨rfl, rfl, rfl⟩
  · cases h

/-- 範囲のどれもが初めの値の config に confd を読むと、`RegionsOk` になる。 -/
theorem regionsOk_loadFromConfd (c : Confd) (p : Platform) (key : List Char) {cfg : LinuxConfig}
    (hs : cfg.splash = .zero) (hm : cfg.memory = List.replicate p.memorySize .zero)
    (hl : cfg.loadAddress = p.pcdLoadAddress) : RegionsOk p (loadFromConfd c p key cfg) := by
  have hsplash : RegionOk .zero (getRegionConfd c cfg.splash key "splash".toList) := by
    rw [← hs]; exact regionOk_getRegionConfd ..
  have hmem : List.Forall₂ RegionOk (List.replicate p.memorySize .zero) (getMemoryConfd c key cfg.memory).1 :=
    forall₂_regionOk_getMemoryConfd c key (hm ▸ List.forall₂_same.2 fun _ _ => .inl rfl)
  unfold loadFromConfd
  dsimp only
  split
  · next hc =>
    refine ⟨hsplash, hmem, ?_, fun h => Bool.noConfusion (hc.symm.trans h)⟩
    rw [← hl]
    exact ⟨regionOk_getRegionConfd .., regionOk_getRegionConfd .., regionOk_getRegionConfd ..,
      regionOk_getRegionConfd ..⟩
  · exact ⟨hsplash, hmem, hl ▸ ⟨.inl rfl, .inl rfl, .inl rfl, .inl rfl⟩, fun _ => hl⟩

/--
**読んだ config の範囲。**

`linux_config_new_from_confd` は `AllocateZeroPool` が成功したときだけ config を返す。返した
config の `splash`、`memory` の各項目、`load_address` の四つの範囲は、どれも読む前の値
（`splash` と `memory` は 0、`load_address` は PCD の値）のままか、`start` も `end` も正の範囲。
`load_custom_address` が（PCD と confd から読んで）偽なら、`load_address` は PCD の値のまま。
-/
theorem linux_config_from_confd_regions (c : Confd) (p : Platform) (key : List Char) :
    (linuxConfigNewFromConfd c p key).isSome = p.allocateZeroPool ∧
      ∀ cfg ∈ linuxConfigNewFromConfd c p key, RegionsOk p cfg := by
  unfold linuxConfigNewFromConfd
  refine ⟨by unfold linuxConfigNew; split <;> simp_all, ?_⟩
  intro cfg hcfg
  obtain ⟨cfg₀, h₀, rfl⟩ := Option.mem_map.1 hcfg
  obtain ⟨hs, hm, hl⟩ := linuxConfigNew_eq_some h₀
  exact regionsOk_loadFromConfd c p key hs hm hl

end Linux
