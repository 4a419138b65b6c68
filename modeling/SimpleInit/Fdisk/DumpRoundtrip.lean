import SimpleInit.Fdisk.TableRoundtrip

/-!
# type と uuid を持つ partition の往復

`TableRoundtrip` の往復を、`sfdisk --dump` が実際に書く行に広げる。GPT の partition の行は
start と size の後に `type=`（partition type の文字列か十六進の code）と `uuid=` を持ち、
bootable なら `, bootable` で終わる。name と attrs はここでも無いとする。

## 鍵になる並び

`size=` の後ろの項目（`Item`）は、どれも `, ` の後に始まる。値のトークンは `,` か行末の NUL で
終わり、`next_token` は `,` を NUL にしてその後ろの空白を読み飛ばすので、次の項目は名前から
始まる（`valueToken_items`）。項目の名前は一文字目で `start=`、`size=`、`attrs=`、`name=` と分かれ、
`parse_line_nameval` は項目を一つずつ読む（`namevalLoop_items`）。

`type=` の値は `script_get_label` で引いた label の `fdisk_label_advparse_parttype` で読まれる。
header を読み終えた script の label の cache は合っている（`LabelCacheCurrent`）ので、引かれる
label は `label` header の値で `fdisk_get_label` が返すものになり、cache を埋めても header と
table は変わらない（`scriptGetLabel_of_current`）。

## 主な定理

* `namevalLoop_items` — `size=` の後ろの項目を順に読み、partition に入れる
* `partitionLine_dump` — 書いて読み直せる partition の行は、start と size の後に `itemsOf` の項目を
  並べたもの
* `readFileLoop_dumpLines` — そのような行を並べた入力を読み切ると、partition が順に戻る
* `write_file_sfdisk_dump_roundtrip` — header と、type と uuid を持つ partition の表は、書いて
  読み直すと戻る
-/

namespace Fdisk

/-! ## `size=` の後ろの項目 -/

/-- `write_file_sfdisk` が `size=` の後ろに書く項目のうち、この往復で扱うもの。 -/
inductive Item
  /-- `, type=%s`（`fdisk_parttype_get_string`）か `, type=%x`（code）。 -/
  | type (s : List Char)
  /-- `, uuid=%s`。 -/
  | uuid (u : List Char)
  /-- `, bootable`。 -/
  | bootable

/-- `, ` の後ろの項目の文字。 -/
def Item.body : Item → List Char
  | .type s => "type=".toList ++ s
  | .uuid u => "uuid=".toList ++ u
  | .bootable => "bootable".toList

/-- 項目を並べた文字：どの項目の前にも `, ` が付く。 -/
def itemsText (its : List Item) : List Char := its.flatMap fun it => ", ".toList ++ it.body

/-- 前の値のトークンを読んだ後に残る文字：次の項目から行の終わりの NUL まで。 -/
def itemsRest : List Item → List Char → List Char
  | [], t => '\x00' :: t
  | it :: its, t => it.body ++ itemsText its ++ '\x00' :: t

/-- 書いて読み直せる値：空でなく、トークンの文字だけで、改行も `\r` も含まない。 -/
def TokenText (s : List Char) : Prop := s ≠ [] ∧ ∀ x ∈ s, tokenChar x = true ∧ x ≠ '\n' ∧ x ≠ '\r'

instance : DecidablePred TokenText := fun s =>
  inferInstanceAs (Decidable (s ≠ [] ∧ ∀ x ∈ s, tokenChar x = true ∧ x ≠ '\n' ∧ x ≠ '\r'))

/-- 読み直せる項目。`type=` の値は、読むときの label `lb` で partition type に読める。 -/
def Item.Ok (env : Env) (lb : Option Label) : Item → Prop
  | .type s => TokenText s ∧ (env.advparseParttype lb s).isSome
  | .uuid u => TokenText u
  | .bootable => True

/-- `parse_line_nameval` が項目を読んで partition に入れるもの。`type=` は `lb` の label で読む。 -/
def readItem (env : Env) (lb : Option Label) (pa : Partition) : Item → Partition
  | .type s => { pa with type := env.advparseParttype lb s }
  | .uuid u => { pa with uuid := some u }
  | .bootable => { pa with boot := true }

@[simp] theorem itemsText_nil : itemsText [] = [] := rfl

theorem itemsText_cons (it : Item) (its : List Item) :
    itemsText (it :: its) = ',' :: ' ' :: (it.body ++ itemsText its) := rfl

theorem Item.body_head (it : Item) : ∃ c cs, it.body = c :: cs ∧ isBlank c = false ∧ c ≠ '\x00' := by
  cases it <;> exact ⟨_, _, rfl, rfl, by decide⟩

/-! ## 値のトークン -/

/-- トークンの文字だけの値の後に `, ` と空白でない文字が続く。`,` を NUL にし、その文字へ進む。 -/
theorem plainToken_comma {b : List Char} {p : Nat} {v R : List Char} {c : Char} (hv : v ≠ [])
    (hvt : ∀ x ∈ v, tokenChar x = true) (h : b.drop p = v ++ ',' :: ' ' :: c :: R)
    (hc : isBlank c = false) :
    ∃ b' p', nextToken b p = some (p, b', p') ∧ b'.drop p = v ++ '\x00' :: ' ' :: c :: R ∧
      b'.drop p' = c :: R := by
  obtain ⟨d, ds, rfl⟩ := List.exists_cons_of_ne_nil hv
  have htok := nextToken_comma (show b.drop p = [] ++ d :: (ds ++ ',' :: ' ' :: c :: R) by rw [h]; rfl)
    (by simp) (hvt d (List.mem_cons_self _ _)) fun x hx => hvt x (List.mem_cons_of_mem _ hx)
  simp only [List.length_nil, Nat.add_zero] at htok
  have hsp : b.drop (p + 1 + ds.length + 1) = [' '] ++ c :: R := by
    have := drop_add_of_drop (show b.drop p = (d :: ds ++ [',']) ++ ' ' :: c :: R by rw [h]; simp)
    rw [List.singleton_append, ← this]; congr 1; simp; omega
  refine ⟨_, _, htok, ?_, ?_⟩
  · have := drop_poke_of_drop '\x00' (show b.drop p = (d :: ds) ++ ',' :: ' ' :: c :: R from h)
    rw [← this]; congr 2; simp; omega
  · rw [skipBlank_of_drop hsp (by simp [isBlank]) hc, drop_poke_of_lt _ _ (by simp; omega)]
    exact drop_add_of_drop hsp

/-- トークンの文字だけの値で行が終わる。バッファは変わらない。 -/
theorem plainToken_nul {b : List Char} {p : Nat} {v R : List Char} (hv : v ≠ [])
    (hvt : ∀ x ∈ v, tokenChar x = true) (h : b.drop p = v ++ '\x00' :: R) :
    ∃ p', nextToken b p = some (p, b, p') ∧ b.drop p' = '\x00' :: R := by
  obtain ⟨d, ds, rfl⟩ := List.exists_cons_of_ne_nil hv
  have htok := nextToken_nul (show b.drop p = [] ++ d :: (ds ++ '\x00' :: R) by rw [h]; rfl)
    (by simp) (hvt d (List.mem_cons_self _ _)) fun x hx => hvt x (List.mem_cons_of_mem _ hx)
  simp only [List.length_nil, Nat.add_zero] at htok
  refine ⟨_, htok, ?_⟩
  have := drop_add_of_drop (show b.drop p = (d :: ds) ++ '\x00' :: R from h)
  rw [← this]; congr 1; simp; omega

/--
**値のトークン。** 値の後に項目が続いても行が終わっても、`next_token` は値だけを切り出し
（`*str` の位置から NUL まで）、次の項目の名前か行末の NUL へ進む。
-/
theorem valueToken_items {b : List Char} {p : Nat} {v : List Char} (its : List Item) (t : List Char)
    (hv : v ≠ []) (hvt : ∀ x ∈ v, tokenChar x = true) (h : b.drop p = v ++ itemsText its ++ '\x00' :: t) :
    ∃ b' p' r, nextToken b p = some (p, b', p') ∧ b'.drop p = v ++ '\x00' :: r ∧
      b'.drop p' = itemsRest its t := by
  cases its with
  | nil =>
    obtain ⟨p', htok, hd⟩ := plainToken_nul hv hvt (by simpa using h)
    exact ⟨b, p', t, htok, by simpa using h, hd⟩
  | cons it its =>
    obtain ⟨c, cs, hc, hb, -⟩ := it.body_head
    obtain ⟨b', p', htok, h₁, h₂⟩ := plainToken_comma hv hvt
      (show b.drop p = v ++ ',' :: ' ' :: c :: (cs ++ itemsText its ++ '\x00' :: t) by
        rw [h, itemsText_cons, hc]; simp) hb
    exact ⟨b', p', _, htok, h₁, by rw [h₂, itemsRest, hc]; simp⟩

/-! ## label の cache -/

/-- `script_get_label` が引く label：`label` header の値で `fdisk_get_label` を呼んだもの。 -/
def headerLabel (env : Env) (dp : Script) : Option Label :=
  env.getLabel (fdiskScriptGetHeader dp "label".toList)

/-- cache が合っていれば、`script_get_label` は `headerLabel` を返し、cache をそれで埋める。 -/
theorem scriptGetLabel_of_current {env : Env} {dp : Script} (h : LabelCacheCurrent env dp) :
    scriptGetLabel env dp = (headerLabel env dp, { dp with label := headerLabel env dp }) := by
  unfold scriptGetLabel
  split
  · next lb hl =>
    have he : some lb = headerLabel env dp := hl ▸ h.resolve_left (by simp [hl])
    rw [← he]
    cases dp
    simp only at hl
    rw [hl]
  · rfl

theorem headerLabel_fill (env : Env) (dp : Script) (l : Option Label) :
    headerLabel env { dp with label := l } = headerLabel env dp := rfl

/-! ## 項目一つ -/

section
variable (env : Env) (st : LineState) {its : List Item} {t : List Char}

/-- 項目の最初の一文字で、それより前に調べる名前と分かれる。 -/
theorem strncasecmpEq_head {c : Char} {r key : List Char} (h : st.buf.drop st.pos = c :: r)
    (hc : c ≠ '\x00') (hk : key ≠ []) (hne : (c.toLower :: []) ≠ lower (key.take 1)) :
    strncasecmpEq st.buf st.pos key = false :=
  strncasecmpEq_of_ne (show st.buf.drop st.pos = [c] ++ r from h) (by simpa using hc.symm)
    (by cases key with | nil => exact absurd rfl hk | cons _ _ => simp) (by simpa [lower] using hne)

/-- `type=` の項目を読む。値は `headerLabel` の label で partition type に読まれ、cache は埋まる。 -/
theorem namevalField_type {s : List Char} {ty : PartType} (hs : s ≠ [])
    (hst : ∀ x ∈ s, tokenChar x = true) (hc : LabelCacheCurrent env st.script)
    (hty : env.advparseParttype (headerLabel env st.script) s = some ty)
    (h : st.buf.drop st.pos = (Item.type s).body ++ itemsText its ++ '\x00' :: t) :
    ∃ st', namevalField env st = (0, st') ∧ st'.buf.drop st'.pos = itemsRest its t ∧
      st'.script = { st.script with label := headerLabel env st.script } ∧
      st'.part = { st.part with type := some ty } := by
  have hd : st.buf.drop st.pos = 't' :: ("ype=".toList ++ s ++ itemsText its ++ '\x00' :: t) := by
    rw [h]; simp [Item.body]
  have hsk : skipBlank st.buf st.pos = st.pos :=
    by simpa using @skipBlank_of_drop st.buf st.pos [] _ 't' (by rw [hd]; rfl) (by simp) rfl
  have hv : st.buf.drop (st.pos + 5) = s ++ itemsText its ++ '\x00' :: t := by
    have := drop_add_of_drop (show st.buf.drop st.pos = "type=".toList ++ (s ++ itemsText its ++ '\x00' :: t)
      by rw [h]; simp [Item.body])
    simpa using this
  obtain ⟨b', p', r, htok, hdrop, hnext⟩ := valueToken_items its t hs hst hv
  have hcs : cstr b' (st.pos + 5) = s := cstr_of_drop hdrop fun hn => (tokenChar_spec (hst _ hn)).1 rfl
  have h5 : (if 't' = 'I' ∨ 't' = 'i' then 3 else 5) = 5 := by decide
  simp only [namevalField, hsk,
    strncasecmpEq_head st hd (by decide) (show "start=".toList ≠ [] by decide) (by decide),
    strncasecmpEq_head st hd (by decide) (show "size=".toList ≠ [] by decide) (by decide),
    strncasecmpEq_head st hd (by decide) (show "bootable".toList ≠ [] by decide) (by decide),
    strncasecmpEq_head st hd (by decide) (show "attrs=".toList ≠ [] by decide) (by decide),
    strncasecmpEq_head st hd (by decide) (show "uuid=".toList ≠ [] by decide) (by decide),
    strncasecmpEq_head st hd (by decide) (show "name=".toList ≠ [] by decide) (by decide), h5,
    strncasecmpEq_of_drop (show st.buf.drop st.pos = "type=".toList ++ (s ++ itemsText its ++ '\x00' :: t)
      by rw [h]; simp [Item.body]) (by decide), peek_of_drop hd, if_true, if_false, Bool.false_eq_true,
    true_or, or_self, typeField_of_nextString env _ _ (nextString_of_nextToken htok), hcs,
    scriptGetLabel_of_current hc, hty]
  exact ⟨_, rfl, hnext, rfl, rfl⟩


/-- `uuid=` の項目を読む。 -/
theorem namevalField_uuid {u : List Char} (hu : u ≠ []) (hut : ∀ x ∈ u, tokenChar x = true)
    (h : st.buf.drop st.pos = (Item.uuid u).body ++ itemsText its ++ '\x00' :: t) :
    ∃ st', namevalField env st = (0, st') ∧ st'.buf.drop st'.pos = itemsRest its t ∧
      st'.script = st.script ∧ st'.part = { st.part with uuid := some u } := by
  have hd : st.buf.drop st.pos = 'u' :: ("uid=".toList ++ u ++ itemsText its ++ '\x00' :: t) := by
    rw [h]; simp [Item.body]
  have hk : st.buf.drop st.pos = "uuid=".toList ++ (u ++ itemsText its ++ '\x00' :: t) := by
    rw [h]; simp [Item.body]
  have hsk : skipBlank st.buf st.pos = st.pos :=
    by simpa using @skipBlank_of_drop st.buf st.pos [] _ 'u' (by rw [hd]; rfl) (by simp) rfl
  have hv : st.buf.drop (st.pos + 5) = u ++ itemsText its ++ '\x00' :: t := by
    simpa using drop_add_of_drop hk
  obtain ⟨b', p', r, htok, hdrop, hnext⟩ := valueToken_items its t hu hut hv
  have hcs : cstr b' (st.pos + 5) = u := cstr_of_drop hdrop fun hn => (tokenChar_spec (hut _ hn)).1 rfl
  simp only [namevalField, hsk,
    strncasecmpEq_head st hd (by decide) (show "start=".toList ≠ [] by decide) (by decide),
    strncasecmpEq_head st hd (by decide) (show "size=".toList ≠ [] by decide) (by decide),
    strncasecmpEq_head st hd (by decide) (show "bootable".toList ≠ [] by decide) (by decide),
    strncasecmpEq_head st hd (by decide) (show "attrs=".toList ≠ [] by decide) (by decide),
    strncasecmpEq_of_drop hk (by decide), if_true, if_false, Bool.false_eq_true, stringField,
    nextString, htok, hcs]
  exact ⟨_, rfl, hnext, rfl, rfl⟩

/-- `bootable` の項目を読む。後ろに項目が続いても、行がそこで終わってもよい。 -/
theorem namevalField_bootable_item (h : st.buf.drop st.pos = Item.bootable.body ++ itemsText its ++ '\x00' :: t) :
    ∃ st', namevalField env st = (0, st') ∧ st'.buf.drop st'.pos = itemsRest its t ∧
      st'.script = st.script ∧ st'.part = { st.part with boot := true } := by
  have hd : st.buf.drop st.pos = 'b' :: ("ootable".toList ++ itemsText its ++ '\x00' :: t) := by
    rw [h]; simp [Item.body]
  have hk : st.buf.drop st.pos = "bootable".toList ++ (itemsText its ++ '\x00' :: t) := by
    rw [h]; simp [Item.body]
  have hsk : skipBlank st.buf st.pos = st.pos :=
    by simpa using @skipBlank_of_drop st.buf st.pos [] _ 'b' (by rw [hd]; rfl) (by simp) rfl
  obtain ⟨b', p', r, htok, hdrop, hnext⟩ := valueToken_items its t (show "bootable".toList ≠ [] by decide)
    (by decide) (by rw [h]; simp [Item.body])
  have hcs : cstr b' st.pos = "bootable".toList := cstr_of_drop hdrop (by decide)
  simp only [namevalField, hsk,
    strncasecmpEq_head st hd (by decide) (show "start=".toList ≠ [] by decide) (by decide),
    strncasecmpEq_head st hd (by decide) (show "size=".toList ≠ [] by decide) (by decide),
    strncasecmpEq_of_drop hk (by decide), if_true, if_false, Bool.false_eq_true, htok, hcs,
    strcasecmpEq_eq, decide_True]
  exact ⟨_, rfl, hnext, rfl, rfl⟩


/-- **項目一つ。** どの項目も、読めば partition に入り、script は label の cache しか変わらない。 -/
theorem namevalField_item (it : Item) (hit : it.Ok env (headerLabel env st.script))
    (hc : LabelCacheCurrent env st.script) (h : st.buf.drop st.pos = it.body ++ itemsText its ++ '\x00' :: t) :
    ∃ st', namevalField env st = (0, st') ∧ st'.buf.drop st'.pos = itemsRest its t ∧
      (∃ l, st'.script = { st.script with label := l }) ∧ LabelCacheCurrent env st'.script ∧
      st'.part = readItem env (headerLabel env st.script) st.part it := by
  cases it with
  | type s =>
    obtain ⟨⟨hs, hst⟩, hty⟩ := hit
    obtain ⟨ty, hty⟩ := Option.isSome_iff_exists.mp hty
    obtain ⟨st', h₁, h₂, h₃, h₄⟩ := namevalField_type env st hs (fun x hx => (hst x hx).1) hc hty h
    exact ⟨st', h₁, h₂, ⟨_, h₃⟩, h₃ ▸ Or.inr rfl, by rw [h₄, readItem, hty]⟩
  | uuid u =>
    obtain ⟨st', h₁, h₂, h₃, h₄⟩ := namevalField_uuid env st hit.1 (fun x hx => (hit.2 x hx).1) h
    exact ⟨st', h₁, h₂, ⟨_, h₃⟩, h₃ ▸ hc, h₄⟩
  | bootable =>
    obtain ⟨st', h₁, h₂, h₃, h₄⟩ := namevalField_bootable_item env st h
    exact ⟨st', h₁, h₂, ⟨_, h₃⟩, h₃ ▸ hc, h₄⟩

end

/--
**`size=` の後ろの項目を読み切る。** 項目の数より多い fuel があれば、ループは項目を順に partition に
入れて行末で 0 を返す。script は label の cache しか変わらず、cache は合ったまま。
-/
theorem namevalLoop_items (env : Env) (lb : Option Label) (t : List Char) :
    ∀ (its : List Item) (st : LineState) (fuel : Nat), (∀ it ∈ its, it.Ok env lb) →
      LabelCacheCurrent env st.script → headerLabel env st.script = lb →
      st.buf.drop st.pos = itemsRest its t →
      ∃ st', namevalLoop env (fuel + its.length + 1) st = (0, st') ∧
        (∃ l, st'.script = { st.script with label := l }) ∧ LabelCacheCurrent env st'.script ∧
        st'.part = its.foldl (readItem env lb) st.part
  | [], st, fuel, _, hc, _, h => ⟨st, namevalLoop_nul fuel (peek_of_drop h), ⟨_, rfl⟩, hc, rfl⟩
  | it :: its, st, fuel, hok, hc, hlb, h => by
    obtain ⟨c, cs, hb, -, hnul⟩ := it.body_head
    have hp : peek st.buf st.pos ≠ '\x00' := by
      rw [peek_of_drop (show st.buf.drop st.pos = c :: _ by rw [h, itemsRest, hb]; rfl)]
      exact hnul
    obtain ⟨st₁, h₁, h₂, ⟨l, hl⟩, hc₁, hp₁⟩ :=
      namevalField_item env st it (hlb ▸ hok it (List.mem_cons_self _ _)) hc h
    obtain ⟨st', h', ⟨l', hl'⟩, hc', hp'⟩ := namevalLoop_items env lb t its st₁ fuel
      (fun g hg => hok g (List.mem_cons_of_mem _ hg)) hc₁ (by rw [hl, headerLabel_fill, hlb]) h₂
    refine ⟨st', ?_, ⟨l', by rw [hl', hl]⟩, hc', by rw [hp', hp₁, hlb]; rfl⟩
    rw [show fuel + (it :: its).length + 1 = fuel + its.length + 1 + 1 by simp; omega,
      namevalLoop_field _ hp h₁, h']

/-- `size=` の値の後に項目が続くか、行が終わる。 -/
theorem sizeToken_items {b : List Char} {p : Nat} (m : Nat) (its : List Item) (t : List Char)
    (h : b.drop p = pad12 (decimal m) ++ itemsText its ++ '\x00' :: t) :
    ∃ tk b' p' r, isDefaultValue b p = none ∧ nextToken b p = some (tk, b', p') ∧
      b'.drop tk = decimal m ++ '\x00' :: r ∧ b'.drop p' = itemsRest its t := by
  cases its with
  | nil =>
    obtain ⟨tk, b', p', h₁, h₂, h₃, h₄⟩ := valueToken_nul m (by simpa using h)
    exact ⟨tk, b', p', t, h₁, h₂, h₃, h₄⟩
  | cons it its =>
    obtain ⟨c, cs, hc, hb, -⟩ := it.body_head
    obtain ⟨tk, b', p', h₁, h₂, h₃, h₄⟩ := valueToken_comma m
      (show b.drop p = pad12 (decimal m) ++ ',' :: ' ' :: c :: (cs ++ itemsText its ++ '\x00' :: t) by
        rw [h, itemsText_cons, hc]; simp) hb
    exact ⟨tk, b', p', _, h₁, h₂, h₃, by rw [h₄, itemsRest, hc]; simp⟩

/--
` start=` から行の終わりまでを読む。start と size を入れ、その後の項目を順に入れる。
script は label の cache しか変わらない。
-/
theorem namevalLoop_dump (env : Env) (lb : Option Label) (st : LineState) {n m : Nat} {its : List Item}
    {t : List Char}
    (h : st.buf.drop st.pos = " start=".toList ++ pad12 (decimal n) ++ ", size=".toList ++
      pad12 (decimal m) ++ itemsText its ++ '\x00' :: t)
    (hn : n ≠ sectorUndef) (hm : m ≠ sectorUndef) (hpn : env.parseSize (decimal n) = .ok (n, 0))
    (hpm : env.parseSize (decimal m) = .ok (m, 0)) (hok : ∀ it ∈ its, it.Ok env lb)
    (hc : LabelCacheCurrent env st.script) (hlb : headerLabel env st.script = lb) (fuel : Nat) :
    ∃ st', namevalLoop env (fuel + its.length + 3) st = (0, st') ∧
      (∃ l, st'.script = { st.script with label := l }) ∧ LabelCacheCurrent env st'.script ∧
      ∃ pa₂, pa₂.written = (some n, some m, st.part.boot, st.part.type, st.part.uuid, st.part.name,
        st.part.attrs) ∧ st'.part = its.foldl (readItem env lb) pa₂ := by
  obtain ⟨hne, hds⟩ := decimal_digits n
  obtain ⟨hne', hds'⟩ := decimal_digits m
  have h₀ : st.buf.drop st.pos = [' '] ++ "start=".toList ++ (pad12 (decimal n) ++ ',' :: ' ' :: 's' ::
      ("ize=".toList ++ pad12 (decimal m) ++ itemsText its ++ '\x00' :: t)) := by
    rw [h]; simp
  have hv : st.buf.drop (st.pos + [' '].length + 6) = pad12 (decimal n) ++ ',' :: ' ' :: 's' ::
      ("ize=".toList ++ pad12 (decimal m) ++ itemsText its ++ '\x00' :: t) :=
    drop_add_of_drop (show _ = [' '] ++ "start=".toList ++ _ by rw [h₀])
  obtain ⟨tk, b', p', hdef, htok, hdrop, hnext⟩ := valueToken_comma n hv (by decide)
  have hp : peek st.buf st.pos ≠ '\x00' := by
    rw [peek_of_drop (show st.buf.drop st.pos = ' ' :: _ by rw [h]; rfl)]; decide
  have h₁ : b'.drop p' = [] ++ "size=".toList ++ (pad12 (decimal m) ++ itemsText its ++ '\x00' :: t) := by
    rw [hnext]; simp
  have hv₁ : b'.drop (p' + ([] : List Char).length + 5) = pad12 (decimal m) ++ itemsText its ++ '\x00' :: t := by
    rw [List.length_nil, Nat.add_zero]; exact drop_add_of_drop (show _ = "size=".toList ++ _ by rw [h₁]; rfl)
  obtain ⟨tk₂, b₂, p₂, r₂, hdef₂, htok₂, hdrop₂, hnext₂⟩ := sizeToken_items m its t hv₁
  have hp₁ : peek b' p' ≠ '\x00' := by rw [peek_of_drop (show b'.drop p' = 's' :: _ by rw [hnext])]; decide
  rw [show fuel + its.length + 3 = fuel + its.length + 1 + 1 + 1 from rfl,
    namevalLoop_field _ hp (namevalField_start env st h₀ (by simp [isBlank]) hdef htok hdrop hne hds hpn),
    namevalLoop_field _ hp₁ (namevalField_size env _ h₁ (by simp) hdef₂ htok₂ hdrop₂ hne' hds' hpm)]
  obtain ⟨st', h', hl, hc', hp'⟩ := namevalLoop_items env lb t its
    ⟨b₂, p₂, { ({ ({ st.part.setStart n with movestart := .none, startFollowDefault := false } : Partition) with
      sizeExplicit := true } : Partition).setSize m with resize := .none, endFollowDefault := false }, st.script⟩
    fuel hok hc hlb hnext₂
  exact ⟨st', h', hl, hc', _, by simp [Partition.written, Partition.setStart, Partition.setSize, hn, hm], hp'⟩

/-! ## 書く側 -/

/-- `write_file_sfdisk` が書く type の値：`fdisk_parttype_get_string` があればその文字、無ければ
code の十六進。 -/
def typeText (ty : PartType) : List Char := ty.typestr.getD (hex ty.code)

/-- `write_file_sfdisk` が partition の `size=` の後ろに書く項目：type、uuid、bootable の順。 -/
def itemsOf (pa : Partition) : List Item :=
  (pa.type.map fun ty => Item.type (typeText ty)).toList ++ (pa.uuid.map Item.uuid).toList ++
    if pa.boot then [Item.bootable] else []

/-- start と size の後に項目を書いた partition の行の、改行の前までの文字。 -/
def dumpLineText (hd : List Char) (n m : Nat) (its : List Item) : List Char :=
  plainLineText hd n m false ++ itemsText its

@[simp] theorem itemsText_append (its its' : List Item) :
    itemsText (its ++ its') = itemsText its ++ itemsText its' := by
  simp [itemsText]

/--
書いて読み直せる partition。`PlainPartition` と違い type と uuid を持ってよい。type の値は
`typeText` がトークンの文字だけで、読むときの label `lb` でその type に読み戻せる。
-/
structure DumpPartition (env : Env) (lb : Option Label) (devname : Option (List Char)) (pa : Partition) :
    Prop where
  head : PlainHead (partitionHead env devname pa)
  start : ∃ n, pa.start = some n ∧ n ≠ sectorUndef ∧ env.parseSize (decimal n) = .ok (n, 0)
  size : ∃ m, pa.size = some m ∧ m ≠ sectorUndef ∧ env.parseSize (decimal m) = .ok (m, 0)
  type : ∀ ty ∈ pa.type, TokenText (typeText ty) ∧ env.advparseParttype lb (typeText ty) = some ty
  uuid : ∀ u ∈ pa.uuid, TokenText u
  name_none : pa.name = none
  attrs_none : pa.attrs = none
  fits : ∀ dp, (partitionLine env devname dp pa).1.length < BUFSIZ

/-- 書いて読み直せる partition の行は `dumpLineText` と改行で、script は変わらない。 -/
theorem partitionLine_dump {env : Env} {lb : Option Label} {devname : Option (List Char)}
    {pa : Partition} {n m : Nat} (hpa : DumpPartition env lb devname pa) (hn : pa.start = some n)
    (hm : pa.size = some m) (dp : Script) :
    partitionLine env devname dp pa =
      (dumpLineText (partitionHead env devname pa) n m (itemsOf pa) ++ ['\n'], dp) := by
  simp only [partitionLine, hn, hm, hpa.name_none, hpa.attrs_none, dumpLineText, plainLineText,
    partitionHead, itemsOf, itemsText_append, Bool.false_eq_true, if_false, List.append_nil]
  rcases devname.bind (env.partname · (partnoNext pa)) with _ | p <;>
    rcases pa.type with _ | ⟨_ | s, c⟩ <;> rcases pa.uuid with _ | u <;> cases pa.boot <;>
    simp only [List.append_assoc, List.append_nil, List.nil_append, if_true, if_false, Bool.false_eq_true,
      Option.map_some', Option.map_none', Option.toList_some, Option.toList_none, itemsText_cons,
      itemsText_nil, Item.body, typeText, Option.getD_some, Option.getD_none] <;> rfl

/-- どの項目も読み直せる。 -/
theorem DumpPartition.items_ok {env : Env} {lb : Option Label} {devname : Option (List Char)}
    {pa : Partition} (hpa : DumpPartition env lb devname pa) : ∀ it ∈ itemsOf pa, it.Ok env lb := by
  intro it hit
  simp only [itemsOf, List.mem_append, Option.mem_toList, Option.mem_def, Option.map_eq_some'] at hit
  rcases hit with (⟨ty, hty, rfl⟩ | ⟨u, hu, rfl⟩) | hb
  · obtain ⟨ht, hp⟩ := hpa.type ty hty
    exact ⟨ht, by rw [hp]; rfl⟩
  · exact hpa.uuid u hu
  · split at hb
    · rw [List.mem_singleton.mp hb]; trivial
    · simp at hb

/-- 項目を順に読むと、start と size だけを持つ partition に type、uuid、bootable が戻る。 -/
theorem written_foldl_itemsOf {env : Env} {lb : Option Label} {devname : Option (List Char)}
    {pa : Partition} {n m : Nat} (hpa : DumpPartition env lb devname pa) (hn : pa.start = some n)
    (hm : pa.size = some m) {pa₂ : Partition}
    (hw : pa₂.written = (some n, some m, false, none, none, none, none)) :
    ((itemsOf pa).foldl (readItem env lb) pa₂).written = pa.written := by
  simp only [Partition.written, Prod.mk.injEq] at hw ⊢
  obtain ⟨h₁, h₂, h₃, h₄, h₅, h₆, h₇⟩ := hw
  rw [hn, hm, hpa.name_none, hpa.attrs_none]
  rcases ht : pa.type with _ | ty
  · rcases hu : pa.uuid with _ | u <;> cases hb : pa.boot <;>
      simp [itemsOf, readItem, ht, hu, hb, h₁, h₂, h₃, h₄, h₅, h₆, h₇]
  · have hp := (hpa.type ty ht).2
    rcases hu : pa.uuid with _ | u <;> cases hb : pa.boot <;>
      simp [itemsOf, readItem, ht, hu, hb, hp, h₁, h₂, h₃, h₅, h₆, h₇]

/-! ## 書いた行を読む -/

theorem TokenText.char {s : List Char} (h : TokenText s) : ∀ c ∈ s, c ≠ '\x00' ∧ c ≠ '\n' ∧ c ≠ '\r' :=
  fun c hc => ⟨(tokenChar_spec (h.2 c hc).1).1, (h.2 c hc).2⟩

theorem Item.Ok.char {env : Env} {lb : Option Label} {it : Item} (h : it.Ok env lb) :
    ∀ c ∈ it.body, c ≠ '\x00' ∧ c ≠ '\n' ∧ c ≠ '\r' := by
  have lit : ∀ s : List Char, (∀ c ∈ s, c ≠ '\x00' ∧ c ≠ '\n' ∧ c ≠ '\r') →
      ∀ c ∈ s, c ≠ '\x00' ∧ c ≠ '\n' ∧ c ≠ '\r' := fun _ h => h
  intro c hc
  cases it with
  | type s => exact (List.mem_append.mp hc).elim (lit _ (by decide) c) (h.1.char c)
  | uuid u => exact (List.mem_append.mp hc).elim (lit _ (by decide) c) (TokenText.char h c)
  | bootable => exact lit _ (by decide) c hc

/-- 読み直せる項目を並べた文字には NUL も改行も `\r` も無い。 -/
theorem itemsText_char {env : Env} {lb : Option Label} {its : List Item} (hok : ∀ it ∈ its, it.Ok env lb) :
    ∀ c ∈ itemsText its, c ≠ '\x00' ∧ c ≠ '\n' ∧ c ≠ '\r' := by
  intro c hc
  obtain ⟨it, hit, hc⟩ := List.mem_flatMap.mp hc
  rcases List.mem_append.mp hc with hc | hc
  · exact (by decide : ∀ c ∈ ", ".toList, c ≠ '\x00' ∧ c ≠ '\n' ∧ c ≠ '\r') c hc
  · exact (hok it hit).char c hc

/-- 項目は二文字（`, `）より長い。 -/
theorem length_le_itemsText : ∀ its : List Item, 2 * its.length ≤ (itemsText its).length
  | [] => le_refl _
  | it :: its => by
    have := length_le_itemsText its
    rw [itemsText_cons]
    simp only [List.length_cons, List.length_append]
    omega

theorem dumpLineText_nul (hd : List Char) (n m : Nat) (its : List Item) (t : List Char) :
    dumpLineText hd n m its ++ '\x00' :: t = hd ++ " :".toList ++ " start=".toList ++
      (pad12 (decimal n) ++ ", size=".toList ++ pad12 (decimal m) ++ itemsText its) ++ '\x00' :: t := by
  simp [dumpLineText, plainLineText]

section
variable (env : Env) (lb : Option Label) {its : List Item}
  (hok : ∀ it ∈ its, it.Ok env lb)
include hok

theorem nul_not_mem_dumpValues (n m : Nat) :
    '\x00' ∉ pad12 (decimal n) ++ ", size=".toList ++ pad12 (decimal m) ++ itemsText its := by
  have h := nul_not_mem_valuesText n m false
  simp only [List.mem_append, not_or, Bool.false_eq_true, if_false, List.not_mem_nil] at h ⊢
  exact ⟨h.1, fun hc => (itemsText_char hok _ hc).1 rfl⟩

/-- 書いた partition の行には NUL も改行も `\r` も無い。 -/
theorem dumpLineText_char {hd : List Char} (hh : PlainHead hd) (n m : Nat) :
    ∀ c ∈ dumpLineText hd n m its, c ≠ '\x00' ∧ c ≠ '\n' ∧ c ≠ '\r' := fun c hc =>
  (List.mem_append.mp hc).elim (plainLineText_char hh n m false c) (itemsText_char hok c)

/-- 書いた partition の行を `parse_line_nameval` で読むと、start と size の後に項目が順に入る。 -/
theorem parseLineNameval_dump (dp : Script) {hd : List Char} (hh : PlainHead hd) {n m : Nat}
    (hn : n ≠ sectorUndef) (hm : m ≠ sectorUndef) (hpn : env.parseSize (decimal n) = .ok (n, 0))
    (hpm : env.parseSize (decimal m) = .ok (m, 0)) (hc : LabelCacheCurrent env dp)
    (hlb : headerLabel env dp = lb) (t : List Char) :
    (parseLineNameval env dp (dumpLineText hd n m its ++ '\x00' :: t) 0).1 = 0 ∧
      ∃ l pa₂, (parseLineNameval env dp (dumpLineText hd n m its ++ '\x00' :: t) 0).2.1 =
        addPartition { dp with label := l } (its.foldl (readItem env lb) pa₂) ∧
        LabelCacheCurrent env { dp with label := l } ∧
        pa₂.written = (some n, some m, false, none, none, none, none) := by
  obtain ⟨pa₀, b₂, hw, hdrop, hpl⟩ := parseLineNameval_head env dp hh (nul_not_mem_dumpValues env lb hok n m) t
  obtain ⟨k, hk⟩ := Nat.exists_eq_add_of_le' (show its.length + 3 ≤ (hd ++ " :".toList ++ " start=".toList ++
      (pad12 (decimal n) ++ ", size=".toList ++ pad12 (decimal m) ++ itemsText its) ++ '\x00' :: t).length + 1 by
    have := length_le_itemsText its
    have h7 : " start=".toList.length = 7 := rfl
    simp only [List.length_append, List.length_cons]
    omega)
  obtain ⟨st', h₁, ⟨l, hl⟩, hc', pa₂, hw₂, hp⟩ := namevalLoop_dump env lb ⟨b₂, hd.length + 2, pa₀, dp⟩
    (show b₂.drop (hd.length + 2) = " start=".toList ++ pad12 (decimal n) ++ ", size=".toList ++
      pad12 (decimal m) ++ itemsText its ++ '\x00' :: t by rw [hdrop]; simp) hn hm hpn hpm hok hc hlb k
  rw [dumpLineText_nul, hpl, hk, ← Nat.add_assoc]
  simp only [h₁, if_true]
  simp only [Partition.written, Prod.mk.injEq] at hw hw₂
  refine ⟨trivial, l, pa₂, by rw [hl, hp], hl ▸ hc', ?_⟩
  simp [Partition.written, hw₂, hw]

/-- `read_buffer` は書いた partition の行を `parse_line_nameval` に渡す。 -/
theorem readBuffer_dump (dp : Script) {hd : List Char} (hh : PlainHead hd) {n m : Nat}
    (hn : n ≠ sectorUndef) (hm : m ≠ sectorUndef) (hpn : env.parseSize (decimal n) = .ok (n, 0))
    (hpm : env.parseSize (decimal m) = .ok (m, 0)) (hc : LabelCacheCurrent env dp)
    (hlb : headerLabel env dp = lb) (t : List Char) :
    (fdiskScriptReadBuffer env dp (dumpLineText hd n m its ++ '\x00' :: t) 0).1 = 0 ∧
      ∃ l pa₂, (fdiskScriptReadBuffer env dp (dumpLineText hd n m its ++ '\x00' :: t) 0).2.1 =
        addPartition { dp with label := l } (its.foldl (readItem env lb) pa₂) ∧
        LabelCacheCurrent env { dp with label := l } ∧
        pa₂.written = (some n, some m, false, none, none, none, none) := by
  have := parseLineNameval_dump env lb hok { dp with table := some (dp.table.getD []) } hh hn hm hpn hpm
    ((labelCacheCurrent_congr env rfl rfl).mpr hc) hlb t
  rwa [dumpLineText_nul, readBuffer_nameval env dp hh (nul_not_mem_dumpValues env lb hok n m),
    ← dumpLineText_nul]

/-- **書いた partition の行を一行読む。** partition が一つ足され、入力はその行だけ進む。 -/
theorem readLine_dump {hd : List Char} (hh : PlainHead hd) {n m : Nat} (hn : n ≠ sectorUndef)
    (hm : m ≠ sectorUndef) (hpn : env.parseSize (decimal n) = .ok (n, 0))
    (hpm : env.parseSize (decimal m) = .ok (m, 0)) (hfit : (dumpLineText hd n m its).length + 1 < BUFSIZ)
    (fuel : Nat) (dp : Script) (hc : LabelCacheCurrent env dp) (hlb : headerLabel env dp = lb)
    (rest b : List Char) :
    let r := fdiskScriptReadLine env BUFSIZ (fuel + 1) dp ⟨dumpLineText hd n m its ++ '\n' :: rest, false⟩ b
    r.1 = 0 ∧ r.2.2.1 = ⟨rest, false⟩ ∧ ∃ l pa₂,
      r.2.1 = addPartition { dp with nlines := dp.nlines + 1, label := l } (its.foldl (readItem env lb) pa₂) ∧
      LabelCacheCurrent env r.2.1 ∧ pa₂.written = (some n, some m, false, none, none, none, none) := by
  obtain ⟨c, cs, hc', hb, -, hh'⟩ := plainHead_head hh
  have hch := dumpLineText_char env lb hok hh n m
  obtain ⟨t, ht⟩ := readLine_text env (fun h => (hch _ h).2.1 rfl) (fun h => (hch _ h).1 rfl)
    (fun h => (hch _ (List.mem_of_getLast?_eq_some h)).2.2 rfl) hfit
    (show dumpLineText hd n m its = c :: _ by rw [dumpLineText, plainLineText, hc']; rfl) hb hh' fuel dp rest b
  obtain ⟨h₁, l, pa₂, h₂, h₃, h₄⟩ := readBuffer_dump env lb hok { dp with nlines := dp.nlines + 1 } hh hn hm
    hpn hpm ((labelCacheCurrent_congr env rfl rfl).mpr hc) hlb t
  rw [ht]
  dsimp only
  refine ⟨h₁, rfl, l, pa₂, h₂, ?_, h₄⟩
  rw [h₂]
  exact (labelCacheCurrent_congr env rfl rfl).mpr h₃

end

/-! ## partition の行を並べた入力 -/

theorem headerLabel_congr (env : Env) {dp dp' : Script} (h : dp'.headers = dp.headers) :
    headerLabel env dp' = headerLabel env dp := by
  rw [headerLabel, fdiskScriptGetHeader, h]; rfl

/-- **ループの一周。** 空の行をいくつか読み飛ばし、書いた partition の行を一行読んで、
`start=` から後ろの項目が同じ partition を表の末尾に足す。header は変わらず、cache は合ったまま。 -/
theorem readFileLoop_dumpLine (env : Env) {lb : Option Label} {devname : Option (List Char)}
    {pa : Partition} (hpa : DumpPartition env lb devname pa) (dp₀ : Script) (j fuel : Nat) (rc : Int)
    (dp : Script) (hc : LabelCacheCurrent env dp) (hlb : headerLabel env dp = lb) (rest b : List Char) :
    ∃ dp' b', readFileLoop env (fuel + 1) rc dp
        ⟨List.replicate j '\n' ++ ((partitionLine env devname dp₀ pa).1 ++ rest), false⟩ b =
      readFileLoop env fuel 0 dp' ⟨rest, false⟩ b' ∧ dp'.headers = dp.headers ∧
      LabelCacheCurrent env dp' ∧
      (dp'.table.getD []).map Partition.written = (dp.table.getD []).map Partition.written ++ [pa.written] := by
  obtain ⟨n, hn, hnu, hpn⟩ := hpa.start
  obtain ⟨m, hm, hmu, hpm⟩ := hpa.size
  have hline := partitionLine_dump hpa hn hm dp₀
  have hfit : (dumpLineText (partitionHead env devname pa) n m (itemsOf pa)).length + 1 < BUFSIZ := by
    simpa [hline] using hpa.fits dp₀
  set L := dumpLineText (partitionHead env devname pa) n m (itemsOf pa)
  have hread := readLine_dump env lb hpa.items_ok hpa.head hnu hmu hpn hpm hfit (L.length + rest.length + 1)
    { dp with nlines := dp.nlines + j } ((labelCacheCurrent_congr env rfl rfl).mpr hc) hlb rest
  obtain ⟨b₁, hb⟩ := readLine_blanks env j (L.length + rest.length + 1 + 1) dp (L ++ '\n' :: rest) b
  rcases hr : fdiskScriptReadLine env BUFSIZ (L.length + rest.length + 1 + 1)
    { dp with nlines := dp.nlines + j } ⟨L ++ '\n' :: rest, false⟩ b₁ with ⟨r₁, dp', f', b'⟩
  obtain ⟨rfl, rfl, l, pa₂, hdp', hc', hw⟩ := hr ▸ hread b₁
  replace hdp' : dp' = _ := hdp'
  refine ⟨dp', b', ?_, by rw [hdp']; rfl, hc', ?_⟩
  · have hf : (List.replicate j '\n' ++ (L ++ '\n' :: rest)).length + 1 =
        L.length + rest.length + 1 + 1 + j := by simp; omega
    rw [hline, List.append_assoc, List.singleton_append]
    simp only [readFileLoop, Bool.false_eq_true, if_false, hf, hb, hr, ne_eq, not_true_eq_false,
      false_and]
  · rw [hdp']
    simp [addPartition, written_foldl_itemsOf hpa hn hm hw]

/--
**partition の行を並べた入力を読み切る。** 読んだ partition の `start=` から後ろの項目は、書いた
partition のものと順に同じで、header は変わらない。
-/
theorem readFileLoop_dumpLines (env : Env) (lb : Option Label) (devname : Option (List Char)) (dp₀ : Script) :
    ∀ (ps : List Partition) (j fuel : Nat) (rc : Int) (dp : Script) (b : List Char),
    (∀ pa ∈ ps, DumpPartition env lb devname pa) → LabelCacheCurrent env dp → headerLabel env dp = lb →
    j + (ps.flatMap fun pa => (partitionLine env devname dp₀ pa).1).length < fuel →
    let r := readFileLoop env fuel rc dp
      ⟨List.replicate j '\n' ++ ps.flatMap fun pa => (partitionLine env devname dp₀ pa).1, false⟩ b
    r.1 = 1 ∧ r.2.headers = dp.headers ∧
      (r.2.table.getD []).map Partition.written =
        (dp.table.getD []).map Partition.written ++ ps.map Partition.written
  | [], j, fuel, rc, dp, b, _, _, _, hlen =>
    readFileLoop_plainLines env devname dp₀ [] j fuel rc dp b (fun _ h => absurd h (List.not_mem_nil _)) hlen
  | pa :: ps, j, fuel + 1, rc, dp, b, hok, hc, hlb, hlen => by
    obtain ⟨dp', b', hstep, hh, hc', hw⟩ := readFileLoop_dumpLine env (hok pa (List.mem_cons_self _ _)) dp₀ j
      fuel rc dp hc hlb (ps.flatMap fun pa => (partitionLine env devname dp₀ pa).1) b
    obtain ⟨i₁, i₂, i₃⟩ := readFileLoop_dumpLines env lb devname dp₀ ps 0 fuel 0 dp' b'
      (fun g hg => hok g (List.mem_cons_of_mem _ hg)) hc' (by rw [headerLabel_congr env hh, hlb]) (by
        have := partitionLine_length_pos env devname dp₀ pa
        simp only [List.flatMap_cons, List.length_append] at hlen
        omega)
    simp only [List.replicate_zero, List.nil_append] at i₁ i₂ i₃
    simp only [List.flatMap_cons, hstep]
    exact ⟨i₁, i₂.trans hh, by rw [i₃, hw]; simp⟩

/-! ## 往復 -/

/--
**header と、type と uuid を持ちうる partition の表は、書いて読み直すと戻る。**

header が `HeaderOk` で名前が重ならず、どの partition も `label` header の名前の label で
`DumpPartition` なら、`write_file_sfdisk` の出力を新しい script に読むと 0 が返り、header の列は
元と同じで、partition の `start=` から後ろの項目は元の partition と順に同じになる。
-/
theorem readFile_writeFileSfdisk_dump (env : Env) (dp : Script) (hnd : NoDupKeys dp.headers)
    (hok : ∀ fi ∈ dp.headers, HeaderOk env fi)
    (hpa : ∀ pa ∈ dp.table.getD [], DumpPartition env (headerLabel env dp) (devnameOf dp.headers) pa) :
    (fdiskScriptReadFile env Script.fresh (.ofText (writeFileSfdisk env dp).1)).1 = 0 ∧
      (fdiskScriptReadFile env Script.fresh (.ofText (writeFileSfdisk env dp).1)).2.headers =
        dp.headers ∧
      ((fdiskScriptReadFile env Script.fresh (.ofText (writeFileSfdisk env dp).1)).2.table.getD []).map
        Partition.written = (dp.table.getD []).map Partition.written := by
  rcases hg : dp.table.getD [] with _ | ⟨pa, t⟩
  · have := readFile_writeFileSfdisk env dp hnd hok (by rw [hg]; exact fun _ h => absurd h (List.not_mem_nil _))
    rwa [hg] at this
  · rw [hg] at hpa
    have hw := writeFileSfdisk_partitions env hg fun g hg => (hpa g hg).attrs_none
    have hhs := length_le_flatMap_headerLine dp.headers
    obtain ⟨k, hk⟩ := Nat.exists_eq_add_of_le'
      (show dp.headers.length ≤ (writeFileSfdisk env dp).1.length + 2 by rw [hw, List.length_append]; omega)
    obtain ⟨rc', dp', b', hloop, hh, htb, hc⟩ := readFileLoop_headers_append env dp.headers k 1 Script.fresh
      (List.replicate 1 '\n' ++
        (pa :: t).flatMap fun pa => (partitionLine env (devnameOf dp.headers) dp pa).1)
      [] hok (by simpa using hnd) rfl
    obtain ⟨r₁, r₂, r₃⟩ := readFileLoop_dumpLines env (headerLabel env dp) (devnameOf dp.headers) dp (pa :: t)
      1 k rc' dp' b' hpa (hc (Or.inl rfl)) (headerLabel_congr env (by simpa using hh)) (by
        rw [hw, List.length_append] at hk
        simp only [List.length_append, List.length_replicate] at hk
        omega)
    simp only [fdiskScriptReadFile, Stream.ofText]
    rw [hk, hw, hloop]
    simp only [r₁, r₂, r₃, hh, htb]
    exact ⟨rfl, rfl, rfl⟩

/--
**header と、type と uuid を持つ partition の表は、書いて読み直すと戻る。**

`sfdisk --dump` の GPT の出力のように、partition の行が `type=` と `uuid=` を持ち、bootable なら
`, bootable` で終わっても、`write_file_sfdisk` の出力を新しい script に読むと 0 が返り、header の列は
元と同じで、partition の start、size、bootable、type、uuid（と、無い name、attrs）は元の partition と
順に同じになる。type は `label` header が名指す label で読み戻せるものとする。
-/
theorem write_file_sfdisk_dump_roundtrip (env : Env) (dp : Script) (hnd : NoDupKeys dp.headers)
    (hok : ∀ fi ∈ dp.headers, HeaderOk env fi)
    (hpa : ∀ pa ∈ dp.table.getD [], DumpPartition env (headerLabel env dp) (devnameOf dp.headers) pa) :
    (fdiskScriptReadFile env Script.fresh (.ofText (writeFileSfdisk env dp).1)).1 = 0 ∧
      (fdiskScriptReadFile env Script.fresh (.ofText (writeFileSfdisk env dp).1)).2.headers =
        dp.headers ∧
      ((fdiskScriptReadFile env Script.fresh (.ofText (writeFileSfdisk env dp).1)).2.table.getD []).map
        Partition.written = (dp.table.getD []).map Partition.written :=
  readFile_writeFileSfdisk_dump env dp hnd hok hpa

/-- GPT の label だけを知り、その label では type の文字をそのまま type に読む環境。 -/
def gptEnv : Env :=
  { Env.bare with
    getLabel := fun n => if n = some "gpt".toList then some ⟨"gpt".toList, false⟩ else none
    advparseParttype := fun lb s => lb.map fun _ => ⟨some s, 0⟩ }

/-- `sfdisk --dump` が GPT の disk について書く script：EFI system と Linux filesystem の partition。 -/
def gptScript : Script :=
  { Script.fresh with
    headers := [⟨"label".toList, "gpt".toList⟩, ⟨"device".toList, "/dev/sda".toList⟩,
      ⟨"unit".toList, "sectors".toList⟩]
    table := some [
      { Partition.new with
        partno := some 0, start := some 2048, size := some 1048576, boot := true
        type := some ⟨some "C12A7328-F81F-11D2-BA4B-00A0C93EC93B".toList, 0⟩
        uuid := some "5B1C3E2A-7D44-4F0B-9C1E-2A3B4C5D6E7F".toList },
      { Partition.new with
        partno := some 1, start := some 1050624, size := some 8388608
        type := some ⟨some "0FC63DAF-8483-4772-8E79-3D69D8477DE4".toList, 0⟩
        uuid := some "9A8B7C6D-5E4F-4A3B-8C2D-1E0F9A8B7C6D".toList }] }

set_option maxRecDepth 4000 in
theorem write_file_sfdisk_dump_roundtrip_sample :
    (NoDupKeys gptScript.headers ∧ (∀ fi ∈ gptScript.headers, HeaderOk gptEnv fi) ∧
        ∀ pa ∈ gptScript.table.getD [],
          DumpPartition gptEnv (headerLabel gptEnv gptScript) (devnameOf gptScript.headers) pa) ∧
      (fdiskScriptReadFile gptEnv Script.fresh (.ofText (writeFileSfdisk gptEnv gptScript).1)).1 = 0 ∧
      (fdiskScriptReadFile gptEnv Script.fresh (.ofText (writeFileSfdisk gptEnv gptScript).1)).2.headers =
        gptScript.headers ∧
      ((fdiskScriptReadFile gptEnv Script.fresh
        (.ofText (writeFileSfdisk gptEnv gptScript).1)).2.table.getD []).map Partition.written =
        (gptScript.table.getD []).map Partition.written := by
  have hnd : NoDupKeys gptScript.headers := by unfold NoDupKeys; decide
  have hok : ∀ fi ∈ gptScript.headers, HeaderOk gptEnv fi := by
    intro fi hfi
    simp only [gptScript, List.mem_cons, List.mem_singleton, List.not_mem_nil, or_false] at hfi
    rcases hfi with rfl | rfl | rfl <;>
      exact ⟨by decide, by decide, by decide, by decide, by decide, by decide, by decide⟩
  have hpa : ∀ pa ∈ gptScript.table.getD [],
      DumpPartition gptEnv (headerLabel gptEnv gptScript) (devnameOf gptScript.headers) pa := by
    intro pa hpa
    simp only [gptScript, Option.getD_some, List.mem_cons, List.mem_singleton, List.not_mem_nil,
      or_false] at hpa
    rcases hpa with rfl | rfl <;>
      exact ⟨⟨by decide, by decide⟩, ⟨_, rfl, by decide, rfl⟩, ⟨_, rfl, by decide, rfl⟩,
        by rintro ty ⟨⟩; exact ⟨by decide, by decide⟩, by rintro u ⟨⟩; decide, rfl, rfl,
        fun d => by rw [partitionLine_fst_of_attrs rfl d Script.fresh]; decide⟩
  exact ⟨⟨hnd, hok, hpa⟩, write_file_sfdisk_dump_roundtrip gptEnv gptScript hnd hok hpa⟩

end Fdisk
