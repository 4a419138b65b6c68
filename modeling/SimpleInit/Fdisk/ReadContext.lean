import SimpleInit.Fdisk.DumpRoundtrip

/-!
# context から script を作る

`fdisk_script_read_context` を写す。script を `fdisk_reset_script` で空にしてから、context の
label と partition を読み、header を決まった順に `fdisk_script_set_header` で足していく。
途中の呼び出しが 0 でない値を返すと、残りは飛ばしてその値を返す（`if (!rc) rc = ...` の連なり）。

context から読むもの（`fdisk_get_label`、`fdisk_get_partitions`、`fdisk_get_disklabel_id`、
`cxt->dev_path`、GPT の label item、`fdisk_get_npartitions`、grain と sector の大きさ）は
`src/` に無い libfdisk の関数の値なので、`Context` の欄として与える。C の型が固定幅の値
（`uint64_t`、`size_t`、`unsigned long`）は `UInt64` で持つ。`set_header` の確保の成否は
header の名前ごとに与える。

## 抽象モデル

`contextHeaders` は、context がどんな header の列として書き出されるかを言う。
`label`、あれば `label-id` と `device`、`unit: sectors`、GPT なら `first-lba`、`last-lba` と
既定でない `table-length`、既定でない `grain`、そして `sector-size` の順である。

## 鍵になる並び

足す名前はどれも、それより前の名前と大文字小文字を無視しても違う。だから `set_header` は
いつも新しい header を末尾に足し、失敗すれば何も変えない。どの呼び出しの後でも header の列は
`contextHeaders` の接頭辞で、rc が 0 なら全体に等しい（`Upto`）。

## 主な定理

* `fdiskScriptReadContext_spec` — どこで失敗しても header は `contextHeaders` の接頭辞で名前は
  重ならず、成功すれば全体に等しく、label の cache は空で、table は context の partition
* `read_context_dump_roundtrip` — context から作った script を `write_file_sfdisk` で書き、
  新しい script に読み直すと、header は `contextHeaders` に、partition は type と uuid も含めて
  context のものに戻る
-/

namespace Fdisk

/-! ## context から読むもの -/

/-- `FDISK_GPT_NPARTITIONS_DEFAULT`。 -/
def gptNpartitionsDefault : Nat := 128

/-- `fdisk_script_read_context` が context から読む値。 -/
structure Context where
  /-- `fdisk_get_label(cxt, NULL)`：今の label。 -/
  label : Option Label
  /-- `fdisk_get_partitions(cxt, &dp->table)` の戻り値と、table に入れた partition。 -/
  partitions : Int × List Partition
  /-- `fdisk_get_disklabel_id(cxt, &p)` が 0 を返し、`p` が NULL でないときの `p`。 -/
  disklabelId : Option (List Char)
  /-- `cxt->dev_path`。 -/
  devPath : Option (List Char)
  /-- `fdisk_is_label(cxt, GPT)`。 -/
  isGpt : Bool
  /-- `fdisk_get_disklabel_item(cxt, GPT_LABELITEM_FIRSTLBA, &item)` の戻り値と `item.data.num64`。 -/
  firstLba : Int × UInt64
  /-- `GPT_LABELITEM_LASTLBA` の同じもの。 -/
  lastLba : Int × UInt64
  /-- `fdisk_get_npartitions(cxt)`。 -/
  npartitions : UInt64
  /-- `fdisk_get_grain_size(cxt)`。 -/
  grainSize : UInt64
  /-- `fdisk_get_sector_size(cxt)`。 -/
  sectorSize : UInt64

/-! ## `fdisk_script_read_context` -/

/-- `if (!rc && data) rc = fdisk_script_set_header(dp, name, data)`。 -/
def setHeaderIf (alloc : List Char → List Bool) (r : Int × Script) (name : List Char) :
    Option (List Char) → Int × Script
  | some d => if r.1 = 0 then fdiskScriptSetHeader (alloc name) r.2 (some name) (some d) else r
  | none => r

/--
`if (!rc) rc = fdisk_get_disklabel_item(cxt, id, &item)` と、それに続く
`if (!rc) { snprintf(buf, ..., "%"PRIu64, item.data.num64); rc = fdisk_script_set_header(dp, name, buf); }`。
-/
def setItemHeader (alloc : List Char → List Bool) (r : Int × Script) (name : List Char)
    (item : Int × UInt64) : Int × Script :=
  setHeaderIf alloc (if r.1 = 0 then (item.1, r.2) else r) name (some (decimal item.2.toNat))

/-- `fdisk_is_label(cxt, GPT)` のときの `first-lba`、`last-lba`、`table-length`。 -/
def readContextGpt (cx : Context) (alloc : List Char → List Bool) (r : Int × Script) :
    Int × Script :=
  let r := setItemHeader alloc r "first-lba".toList cx.firstLba
  let r := setItemHeader alloc r "last-lba".toList cx.lastLba
  setHeaderIf alloc r "table-length".toList
    (if cx.npartitions.toNat ≠ gptNpartitionsDefault then some (decimal cx.npartitions.toNat) else none)

/--
`fdisk_script_read_context(dp, cxt)`。`dp` も context も NULL でないとして、script を reset し、
label と partition を読み、header を順に足す。
-/
def fdiskScriptReadContext (cx : Context) (alloc : List Char → List Bool) (dp : Script) :
    Int × Script :=
  let dp := fdiskResetScript dp
  match cx.label with
  | none => (-EINVAL, dp)
  | some lb =>
    if cx.partitions.1 ≠ 0 then (cx.partitions.1, dp) else
    let r := setHeaderIf alloc (0, { dp with table := some cx.partitions.2 }) "label".toList
      (some lb.name)
    let r := setHeaderIf alloc r "label-id".toList cx.disklabelId
    let r := setHeaderIf alloc r "device".toList cx.devPath
    let r := setHeaderIf alloc r "unit".toList (some "sectors".toList)
    let r := if cx.isGpt then readContextGpt cx alloc r else r
    let r := setHeaderIf alloc r "grain".toList
      (if cx.grainSize.toNat ≠ 2048 * 512 then some (decimal cx.grainSize.toNat) else none)
    setHeaderIf alloc r "sector-size".toList (some (decimal cx.sectorSize.toNat))

/-! ## 抽象モデル：context を表す header の列 -/

/-- 値があれば header `name` を一つ、無ければ何も。 -/
def optHeader (name : List Char) (v : Option (List Char)) : List Header :=
  v.toList.map (Header.mk name)

/-- GPT の label だけが持つ header。 -/
def gptHeaders (cx : Context) : List Header :=
  if cx.isGpt then
    optHeader "first-lba".toList (some (decimal cx.firstLba.2.toNat)) ++
      optHeader "last-lba".toList (some (decimal cx.lastLba.2.toNat)) ++
      optHeader "table-length".toList
        (if cx.npartitions.toNat ≠ gptNpartitionsDefault then some (decimal cx.npartitions.toNat)
        else none)
  else []

/-- context を書き出した header の列。label が無ければ空。 -/
def contextHeaders (cx : Context) : List Header :=
  match cx.label with
  | none => []
  | some lb =>
    optHeader "label".toList (some lb.name) ++ optHeader "label-id".toList cx.disklabelId ++
      optHeader "device".toList cx.devPath ++ optHeader "unit".toList (some "sectors".toList) ++
      gptHeaders cx ++
      optHeader "grain".toList
        (if cx.grainSize.toNat ≠ 2048 * 512 then some (decimal cx.grainSize.toNat) else none) ++
      optHeader "sector-size".toList (some (decimal cx.sectorSize.toNat))

/-! ## 呼び出しごとに保たれること -/

/--
header を足す呼び出しをいくつか終えたところ。`used` はここまでに足そうとした名前、`L` は
ここまでがすべて成功したときの header の列、`ps` は table の partition。
-/
structure Upto (used : List (List Char)) (L : List Header) (ps : List Partition)
    (r : Int × Script) : Prop where
  isPre : r.2.headers <+: L
  nodup : NoDupKeys L
  names : ∀ fi ∈ L, fi.name ∈ used
  table : r.2.table = some ps
  ok : r.1 = 0 → r.2.headers = L ∧ r.2.label = none

/-- 今の名前と重ならない名前の `set_header` は、成功すれば末尾に足し、失敗すれば何も変えない。 -/
theorem setHeader_new (a : List Bool) {dp : Script} {n : List Char} (d : List Char)
    (h : ∀ fi ∈ dp.headers, lower fi.name ≠ lower n) :
    fdiskScriptSetHeader a dp (some n) (some d) =
        (0, dropLabelCache n { dp with headers := dp.headers ++ [⟨n, d⟩] }) ∨
      fdiskScriptSetHeader a dp (some n) (some d) = (-ENOMEM, dp) := by
  rw [setHeader_absent_data (scriptGetHeader_eq_none.mpr h)]
  split
  · exact .inl rfl
  · exact .inr rfl

theorem neg_ENOMEM_ne : (-ENOMEM : Int) ≠ 0 := by decide

theorem neg_EINVAL_ne : (-EINVAL : Int) ≠ 0 := by decide

theorem dropLabelCache_label_none (n : List Char) {dp : Script} (h : dp.label = none ∨ n = "label".toList) :
    (dropLabelCache n dp).label = none := by
  unfold dropLabelCache
  split
  · rfl
  · exact h.resolve_right ‹_›

section
variable {used : List (List Char)} {L : List Header} {ps : List Partition} {r : Int × Script}

theorem Upto.mono {used' : List (List Char)} (h : Upto used L ps r) (hu : used ⊆ used') :
    Upto used' L ps r :=
  ⟨h.isPre, h.nodup, fun fi hfi => hu (h.names fi hfi), h.table, h.ok⟩

/-- `if (!rc) rc = f()` で、`f` が script に触らない外の関数のとき。 -/
theorem Upto.rc (h : Upto used L ps r) (c : Int) : Upto used L ps (if r.1 = 0 then (c, r.2) else r) := by
  split
  · exact ⟨h.isPre, h.nodup, h.names, h.table, fun _ => h.ok ‹_›⟩
  · exact h

/-- **一歩。** まだ使っていない名前の header を（値があれば）足そうとする。 -/
theorem Upto.add (h : Upto used L ps r) (alloc : List Char → List Bool) (n : List Char)
    (v : Option (List Char)) (hn : ∀ m ∈ used, lower m ≠ lower n) :
    Upto (n :: used) (L ++ optHeader n v) ps (setHeaderIf alloc r n v) := by
  have hL : ∀ fi ∈ L, lower fi.name ≠ lower n := fun fi hfi => hn _ (h.names fi hfi)
  have names : ∀ fi ∈ L ++ optHeader n v, fi.name ∈ n :: used := by
    intro fi hfi
    rcases List.mem_append.mp hfi with hfi | hfi
    · exact List.mem_cons_of_mem _ (h.names fi hfi)
    · obtain ⟨d, -, rfl⟩ := List.mem_map.mp hfi
      exact List.mem_cons_self _ _
  rcases v with _ | d
  · simp only [optHeader, Option.toList_none, List.map_nil, List.append_nil] at names ⊢
    exact ⟨h.isPre, h.nodup, names, h.table, h.ok⟩
  have nodup : NoDupKeys (L ++ optHeader n (some d)) := noDupKeys_append_new h.nodup hL
  by_cases hr : r.1 = 0
  · obtain ⟨hh, hlab⟩ := h.ok hr
    simp only [setHeaderIf, if_pos hr]
    rcases setHeader_new (alloc n) d (hh ▸ hL) with he | he <;> rw [he]
    · exact ⟨by simp [hh, optHeader], nodup, names, by simp [h.table],
        fun _ => ⟨by simp [hh, optHeader], dropLabelCache_label_none n (.inl hlab)⟩⟩
    · exact ⟨hh ▸ List.prefix_append _ _, nodup, names, h.table, fun e => absurd e neg_ENOMEM_ne⟩
  · simp only [setHeaderIf, if_neg hr]
    exact ⟨h.isPre.trans (List.prefix_append _ _), nodup, names, h.table, fun e => absurd e hr⟩

/-- GPT の三つの header。GPT でなければ何もしない。 -/
theorem Upto.gpt (h : Upto used L ps r) (cx : Context) (alloc : List Char → List Bool)
    (hn : ∀ m ∈ used, lower m ≠ lower "first-lba".toList ∧ lower m ≠ lower "last-lba".toList ∧
      lower m ≠ lower "table-length".toList) :
    Upto ("table-length".toList :: "last-lba".toList :: "first-lba".toList :: used) (L ++ gptHeaders cx) ps
      (if cx.isGpt then readContextGpt cx alloc r else r) := by
  unfold gptHeaders
  cases cx.isGpt
  · simp only [Bool.false_eq_true, if_false, List.append_nil]
    exact h.mono fun m hm => by simp [hm]
  · simp only [if_true, ← List.append_assoc]
    refine (((h.rc _).add alloc _ _ fun m hm => (hn m hm).1).rc _ |>.add alloc _ _ ?_).add alloc _ _ ?_
    · simp only [List.mem_cons]
      rintro m (rfl | hm)
      · decide
      · exact (hn m hm).2.1
    · simp only [List.mem_cons]
      rintro m (rfl | rfl | hm)
      · decide
      · decide
      · exact (hn m hm).2.2

end

/-- 最初の一歩：label の header を空の列に足す。成功すれば label の cache も空になる。 -/
theorem upto_label (alloc : List Char → List Bool) (name : List Char) {dp : Script} {ps : List Partition}
    (hh : dp.headers = []) (ht : dp.table = some ps) :
    Upto ["label".toList] (optHeader "label".toList (some name)) ps
      (setHeaderIf alloc (0, dp) "label".toList (some name)) := by
  have names : ∀ fi ∈ optHeader "label".toList (some name), fi.name ∈ ["label".toList] := by
    simp [optHeader]
  simp only [setHeaderIf, if_true]
  have hnew : ∀ fi ∈ dp.headers, lower fi.name ≠ lower "label".toList := by simp [hh]
  rcases setHeader_new (alloc "label".toList) name hnew with he | he <;> rw [he]
  · exact ⟨by simp [hh, optHeader], List.nodup_singleton _, names, by simp [ht],
      fun _ => ⟨by simp [hh, optHeader], dropLabelCache_label_none _ (.inr rfl)⟩⟩
  · exact ⟨by simp [hh], List.nodup_singleton _, names, ht, fun e => absurd e neg_ENOMEM_ne⟩

/-! ## 呼び出し全体 -/

theorem readContext_no_label {cx : Context} (hlb : cx.label = none) (alloc : List Char → List Bool)
    (dp : Script) : fdiskScriptReadContext cx alloc dp = (-EINVAL, fdiskResetScript dp) := by
  simp [fdiskScriptReadContext, hlb]

theorem readContext_partitions_fail {cx : Context} {lb : Label} (hlb : cx.label = some lb)
    (hp : cx.partitions.1 ≠ 0) (alloc : List Char → List Bool) (dp : Script) :
    fdiskScriptReadContext cx alloc dp = (cx.partitions.1, fdiskResetScript dp) := by
  simp [fdiskScriptReadContext, hlb, hp]

/-- label があり partition が読めれば、呼び出しの列の全体が `contextHeaders` に沿う。 -/
theorem readContext_upto {cx : Context} {lb : Label} (hlb : cx.label = some lb) (hp : cx.partitions.1 = 0)
    (alloc : List Char → List Bool) (dp : Script) :
    ∃ used, Upto used (contextHeaders cx) cx.partitions.2 (fdiskScriptReadContext cx alloc dp) := by
  have h₄ := (((@upto_label alloc lb.name { fdiskResetScript dp with table := some cx.partitions.2 } _
    rfl rfl).add alloc "label-id".toList cx.disklabelId (by decide)).add alloc "device".toList cx.devPath
    (by decide)).add alloc "unit".toList (some "sectors".toList) (by decide)
  have h₇ := ((h₄.gpt cx alloc (by decide)).add alloc "grain".toList
    (if cx.grainSize.toNat ≠ 2048 * 512 then some (decimal cx.grainSize.toNat) else none)
    (by decide)).add alloc "sector-size".toList (some (decimal cx.sectorSize.toNat)) (by decide)
  simp only [fdiskScriptReadContext, contextHeaders, hlb, hp, ne_eq, not_true_eq_false, if_false]
  exact ⟨_, h₇⟩

/-- 成功したなら label があり、partition が読めている。 -/
theorem readContext_ok {cx : Context} {alloc : List Char → List Bool} {dp : Script}
    (h : (fdiskScriptReadContext cx alloc dp).1 = 0) : ∃ lb, cx.label = some lb ∧ cx.partitions.1 = 0 := by
  rcases hlb : cx.label with _ | lb
  · rw [readContext_no_label hlb] at h
    exact absurd h neg_EINVAL_ne
  · refine ⟨lb, rfl, Classical.byContradiction fun hp => ?_⟩
    rw [readContext_partitions_fail hlb hp] at h
    exact hp h

theorem noDupKeys_of_isPrefix {hs L : List Header} (hL : NoDupKeys L) (h : hs <+: L) : NoDupKeys hs :=
  hL.sublist (h.sublist.map _)

/--
**`fdisk_script_read_context` が残す header。**

どんな context、どの確保の失敗、前にどんな中身があった script についても、呼び出しの後の
header の列は `contextHeaders` の接頭辞で（前の header は一つも残らない）、名前は大文字小文字を
無視して重ならない。0 を返したなら header は `contextHeaders` そのもので、label の cache は空、
table は `fdisk_get_partitions` が入れた partition である。
-/
theorem fdiskScriptReadContext_spec (cx : Context) (alloc : List Char → List Bool) (dp : Script) :
    (fdiskScriptReadContext cx alloc dp).2.headers <+: contextHeaders cx ∧
      NoDupKeys (fdiskScriptReadContext cx alloc dp).2.headers ∧
      ((fdiskScriptReadContext cx alloc dp).1 = 0 →
        (fdiskScriptReadContext cx alloc dp).2.headers = contextHeaders cx ∧
          (fdiskScriptReadContext cx alloc dp).2.label = none ∧
          (fdiskScriptReadContext cx alloc dp).2.table = some cx.partitions.2) := by
  rcases hlb : cx.label with _ | lb
  · rw [readContext_no_label hlb]
    exact ⟨List.nil_prefix, List.nodup_nil, fun e => absurd e neg_EINVAL_ne⟩
  by_cases hp : cx.partitions.1 = 0
  · obtain ⟨_, h⟩ := readContext_upto hlb hp alloc dp
    exact ⟨h.isPre, noDupKeys_of_isPrefix h.nodup h.isPre,
      fun e => ⟨(h.ok e).1, (h.ok e).2, h.table⟩⟩
  · rw [readContext_partitions_fail hlb hp]
    exact ⟨List.nil_prefix, List.nodup_nil, fun e => absurd e hp⟩

/-! ## 書き出して読み直す -/

theorem supportedHeaders_length : ∀ n ∈ supportedHeaders, n.length ≤ 12 := by decide

/-- 十進の数を値に持つ header は、名前が `label` でも `unit` でもなければ書いて読み直せる。 -/
theorem headerOk_decimal (env : Env) {n : List Char} (hn : n ∈ supportedHeaders)
    (hl : n ≠ "label".toList) (hu : n ≠ "unit".toList) (x : UInt64) :
    HeaderOk env ⟨n, decimal x.toNat⟩ where
  name_mem := hn
  data_ne := (decimal_digits _).1
  data_trim := trimWhitespace_of_plain fun c hc => isSpace_of_isDigit ((decimal_digits _).2 c hc)
  data_plain c hc :=
    have hd := (decimal_digits _).2 c hc
    ⟨ne_of_isDigit hd rfl, ne_of_isDigit hd rfl, ne_of_isDigit hd rfl⟩
  label_known h := absurd h hl
  unit_sectors h := absurd h hu
  fits := by
    have h₁ : (decimal x.toNat).length ≤ 19 + 1 :=
      decimal_length_le (Nat.lt_of_lt_of_le (UInt64.toNat_lt_size x) (by decide))
    have h₂ := supportedHeaders_length n hn
    simp only [headerLine, List.length_append, List.length_singleton, BUFSIZ]
    simp only [String.toList, List.length_cons, List.length_nil]
    omega

/-- 値が（あれば）どれも十進の数である header。 -/
theorem optHeader_decimal_ok (env : Env) {n : List Char} (hn : n ∈ supportedHeaders)
    (hl : n ≠ "label".toList) (hu : n ≠ "unit".toList) {v : Option (List Char)}
    (hv : ∀ d ∈ v, ∃ x : UInt64, d = decimal x.toNat) : ∀ fi ∈ optHeader n v, HeaderOk env fi := by
  intro fi hfi
  obtain ⟨d, hd, rfl⟩ := List.mem_map.mp hfi
  obtain ⟨x, rfl⟩ := hv d (Option.mem_toList.mp hd)
  exact headerOk_decimal env hn hl hu x

theorem optHeader_ok {env : Env} {n : List Char} {v : Option (List Char)}
    (hv : ∀ d ∈ v, HeaderOk env ⟨n, d⟩) : ∀ fi ∈ optHeader n v, HeaderOk env fi := by
  intro fi hfi
  obtain ⟨d, hd, rfl⟩ := List.mem_map.mp hfi
  exact hv d (Option.mem_toList.mp hd)

theorem mem_ite_decimal {c : Prop} [Decidable c] {x : UInt64} {d : List Char}
    (h : d ∈ (if c then some (decimal x.toNat) else none)) : ∃ y : UInt64, d = decimal y.toNat := by
  split at h
  · exact ⟨x, (Option.mem_some_iff.mp h).symm⟩
  · simp at h

/--
context を書き出した header はどれも書いて読み直せる。label の名前、label の id、device の
名前がそれぞれ読み直せる値であればよい。数の header と `unit: sectors` はいつも読み直せる。
-/
theorem contextHeaders_ok (env : Env) (cx : Context)
    (hlabel : ∀ lb ∈ cx.label, HeaderOk env ⟨"label".toList, lb.name⟩)
    (hid : ∀ v ∈ cx.disklabelId, HeaderOk env ⟨"label-id".toList, v⟩)
    (hdev : ∀ v ∈ cx.devPath, HeaderOk env ⟨"device".toList, v⟩) :
    ∀ fi ∈ contextHeaders cx, HeaderOk env fi := by
  have hnum : ∀ (n : List Char) (x : UInt64), n ∈ supportedHeaders → n ≠ "label".toList →
      n ≠ "unit".toList → ∀ fi ∈ optHeader n (some (decimal x.toNat)), HeaderOk env fi :=
    fun n x hn hl hu => optHeader_decimal_ok env hn hl hu fun d hd => ⟨x, (Option.mem_some_iff.mp hd).symm⟩
  unfold contextHeaders
  rcases hlb : cx.label with _ | lb
  · simp
  simp only [List.forall_mem_append]
  refine ⟨⟨⟨⟨⟨⟨optHeader_ok fun d hd => ?_, optHeader_ok hid⟩, optHeader_ok hdev⟩,
    optHeader_ok fun d hd => ?_⟩, ?_⟩, optHeader_decimal_ok env (by decide) (by decide) (by decide)
      fun d hd => mem_ite_decimal hd⟩, hnum _ _ (by decide) (by decide) (by decide)⟩
  · rw [← Option.mem_some_iff.mp hd]; exact hlabel lb hlb
  · rw [← Option.mem_some_iff.mp hd]; exact ⟨by decide, by decide, by decide, by decide,
      fun h => absurd h (by decide), fun _ => rfl, by decide⟩
  · unfold gptHeaders
    split
    · simp only [List.forall_mem_append]
      exact ⟨⟨hnum _ _ (by decide) (by decide) (by decide), hnum _ _ (by decide) (by decide) (by decide)⟩,
        optHeader_decimal_ok env (by decide) (by decide) (by decide) fun d hd => mem_ite_decimal hd⟩
    · simp

/-- 名前が `device` でない header は、`write_file_sfdisk` の `devname` を変えない。 -/
theorem foldl_devname_optHeader {n : List Char} (hn : n ≠ "device".toList) (v d : Option (List Char)) :
    (optHeader n v).foldl (fun d fi => if fi.name = "device".toList then some fi.data else d) d = d := by
  cases v
  · rfl
  · simp only [optHeader, Option.toList_some, List.map_cons, List.map_nil, List.foldl_cons,
      List.foldl_nil, if_neg hn]

/-- context を書き出した header から `write_file_sfdisk` が取る device 名は `cxt->dev_path`。 -/
theorem devnameOf_contextHeaders {cx : Context} {lb : Label} (hlb : cx.label = some lb) :
    devnameOf (contextHeaders cx) = cx.devPath := by
  have hgpt : ∀ d, (gptHeaders cx).foldl
      (fun d fi => if fi.name = "device".toList then some fi.data else d) d = d := by
    intro d
    unfold gptHeaders
    split
    · simp only [List.foldl_append, foldl_devname_optHeader (show "first-lba".toList ≠ _ by decide),
        foldl_devname_optHeader (show "last-lba".toList ≠ _ by decide),
        foldl_devname_optHeader (show "table-length".toList ≠ _ by decide)]
    · rfl
  simp only [devnameOf, contextHeaders, hlb, List.foldl_append, hgpt,
    foldl_devname_optHeader (show "label".toList ≠ _ by decide),
    foldl_devname_optHeader (show "label-id".toList ≠ _ by decide),
    foldl_devname_optHeader (show "unit".toList ≠ _ by decide),
    foldl_devname_optHeader (show "grain".toList ≠ _ by decide),
    foldl_devname_optHeader (show "sector-size".toList ≠ _ by decide)]
  cases cx.devPath <;> simp [optHeader]

/-- context から作った script の `label` header は context の label の名前を名指す。 -/
theorem headerLabel_contextHeaders (env : Env) {cx : Context} {lb : Label} {dp : Script}
    (hlb : cx.label = some lb) (hh : dp.headers = contextHeaders cx) :
    headerLabel env dp = env.getLabel (some lb.name) := by
  simp [headerLabel, fdiskScriptGetHeader, hh, contextHeaders, hlb, optHeader, scriptGetHeader]

/--
**context を書き出して読み直すと戻る（`sfdisk --dump` の出力を読み込む）。**

`fdisk_script_read_context` が 0 を返したとする。label の名前、label の id、device の名前が
それぞれ header の値として読み直せ、context の partition がどれも、その label で
`DumpPartition` なら（start と size を持ち、type はその label で読み戻せる）、その script を
`write_file_sfdisk` で書いて新しい script に `fdisk_script_read_file` で読むと、0 が返り、
header の列は `contextHeaders` で、partition の start、size、bootable、type、uuid は context の
partition と順に同じになる。数の header（`first-lba`、`last-lba`、`table-length`、`grain`、
`sector-size`）と `unit` は、値によらずいつも戻る。
-/
theorem read_context_dump_roundtrip (env : Env) (cx : Context) (alloc : List Char → List Bool)
    (dp : Script) (hrc : (fdiskScriptReadContext cx alloc dp).1 = 0)
    (hlabel : ∀ lb ∈ cx.label, HeaderOk env ⟨"label".toList, lb.name⟩)
    (hid : ∀ v ∈ cx.disklabelId, HeaderOk env ⟨"label-id".toList, v⟩)
    (hdev : ∀ v ∈ cx.devPath, HeaderOk env ⟨"device".toList, v⟩)
    (hpa : ∀ lb ∈ cx.label, ∀ pa ∈ cx.partitions.2,
      DumpPartition env (env.getLabel (some lb.name)) cx.devPath pa) :
    (fdiskScriptReadFile env Script.fresh
        (.ofText (writeFileSfdisk env (fdiskScriptReadContext cx alloc dp).2).1)).1 = 0 ∧
      (fdiskScriptReadFile env Script.fresh
        (.ofText (writeFileSfdisk env (fdiskScriptReadContext cx alloc dp).2).1)).2.headers =
        contextHeaders cx ∧
      ((fdiskScriptReadFile env Script.fresh
        (.ofText (writeFileSfdisk env (fdiskScriptReadContext cx alloc dp).2).1)).2.table.getD []).map
        Partition.written = cx.partitions.2.map Partition.written := by
  obtain ⟨lb, hlb, hp⟩ := readContext_ok hrc
  obtain ⟨_, h⟩ := readContext_upto hlb hp alloc dp
  obtain ⟨hh, -⟩ := h.ok hrc
  have hrt := readFile_writeFileSfdisk_dump env (fdiskScriptReadContext cx alloc dp).2 (hh ▸ h.nodup)
    (hh ▸ contextHeaders_ok env cx hlabel hid hdev)
    (by rw [h.table, headerLabel_contextHeaders env hlb hh, hh, devnameOf_contextHeaders hlb]; exact hpa lb hlb)
  rw [hh, h.table] at hrt
  exact hrt

/-- partition を二つ持つ GPT の disk。どちらも type と uuid を持つ。 -/
def gptDisk : Context :=
  { label := some ⟨"gpt".toList, false⟩
    partitions := (0, [
      { Partition.new with
        partno := some 0, start := some 2048, size := some 204800
        type := some ⟨some "C12A7328-F81F-11D2-BA4B-00A0C93EC93B".toList, 0⟩
        uuid := some "1F2E3D4C-5B6A-4978-8695-A4B3C2D1E0F9".toList },
      { Partition.new with
        partno := some 1, start := some 206848, size := some 1000000, boot := true
        type := some ⟨some "0FC63DAF-8483-4772-8E79-3D69D8477DE4".toList, 0⟩
        uuid := some "0A1B2C3D-4E5F-4061-8273-94A5B6C7D8E9".toList }])
    disklabelId := some "6E3A2B70-2C1F-4A8E-9F00-0C4B1D2E3F40".toList
    devPath := some "/dev/sda".toList
    isGpt := true
    firstLba := (0, 34)
    lastLba := (0, 2097118)
    npartitions := 128
    grainSize := 1048576
    sectorSize := 512 }

set_option maxRecDepth 4000 in
theorem read_context_dump_roundtrip_sample :
    ((fdiskScriptReadContext gptDisk (fun _ => []) Script.fresh).1 = 0 ∧
        (∀ lb ∈ gptDisk.label, HeaderOk gptEnv ⟨"label".toList, lb.name⟩) ∧
        (∀ v ∈ gptDisk.disklabelId, HeaderOk gptEnv ⟨"label-id".toList, v⟩) ∧
        (∀ v ∈ gptDisk.devPath, HeaderOk gptEnv ⟨"device".toList, v⟩) ∧
        ∀ lb ∈ gptDisk.label, ∀ pa ∈ gptDisk.partitions.2,
          DumpPartition gptEnv (gptEnv.getLabel (some lb.name)) gptDisk.devPath pa) ∧
      (fdiskScriptReadFile gptEnv Script.fresh (.ofText
        (writeFileSfdisk gptEnv (fdiskScriptReadContext gptDisk (fun _ => []) Script.fresh).2).1)).1 = 0 ∧
      (fdiskScriptReadFile gptEnv Script.fresh (.ofText
        (writeFileSfdisk gptEnv (fdiskScriptReadContext gptDisk (fun _ => []) Script.fresh).2).1)).2.headers =
        contextHeaders gptDisk ∧
      ((fdiskScriptReadFile gptEnv Script.fresh (.ofText
        (writeFileSfdisk gptEnv (fdiskScriptReadContext gptDisk (fun _ => []) Script.fresh).2).1)).2.table.getD
          []).map Partition.written = gptDisk.partitions.2.map Partition.written := by
  have hrc : (fdiskScriptReadContext gptDisk (fun _ => []) Script.fresh).1 = 0 := by decide
  have hlabel : ∀ lb ∈ gptDisk.label, HeaderOk gptEnv ⟨"label".toList, lb.name⟩ := by
    rintro lb ⟨⟩
    exact ⟨by decide, by decide, by decide, by decide, by decide, by decide, by decide⟩
  have hid : ∀ v ∈ gptDisk.disklabelId, HeaderOk gptEnv ⟨"label-id".toList, v⟩ := by
    rintro v ⟨⟩
    exact ⟨by decide, by decide, by decide, by decide, by decide, by decide, by decide⟩
  have hdev : ∀ v ∈ gptDisk.devPath, HeaderOk gptEnv ⟨"device".toList, v⟩ := by
    rintro v ⟨⟩
    exact ⟨by decide, by decide, by decide, by decide, by decide, by decide, by decide⟩
  have hpa : ∀ lb ∈ gptDisk.label, ∀ pa ∈ gptDisk.partitions.2,
      DumpPartition gptEnv (gptEnv.getLabel (some lb.name)) gptDisk.devPath pa := by
    rintro lb ⟨⟩ pa hpa
    simp only [gptDisk, List.mem_cons, List.mem_singleton, List.not_mem_nil, or_false] at hpa
    rcases hpa with rfl | rfl <;>
      exact ⟨⟨by decide, by decide⟩, ⟨_, rfl, by decide, rfl⟩, ⟨_, rfl, by decide, rfl⟩,
        by rintro ty ⟨⟩; exact ⟨by decide, by decide⟩, by rintro u ⟨⟩; decide, rfl, rfl,
        fun d => by rw [partitionLine_fst_of_attrs rfl d Script.fresh]; decide⟩
  exact ⟨⟨hrc, hlabel, hid, hdev, hpa⟩,
    read_context_dump_roundtrip gptEnv gptDisk (fun _ => []) Script.fresh hrc hlabel hid hdev hpa⟩

end Fdisk
