import Mathlib.Data.List.Basic

/-!
# UEFI の keyboard を LVGL の keypad にする

`keyboard_read` と `keyboard_register` を写す。`keyboard_read` は LVGL の keypad の `read_cb` で、
呼ばれるたびに `ReadKeyStroke` で keystroke を一つ読み、scan code か Unicode の文字を LVGL の key に
する。group が編集中かどうかで対応が変わる（音量の key は上と下しか無いので、編集中は上と下を
左と右にする）。どの `case` にも当たらない keystroke では `data->key` に書かないまま押したことにする。

UEFI と LVGL の値（`SCAN_*`、`LV_KEY_*`、`LV_INDEV_STATE_*`）は `src/` に無いので、
`Protocol/SimpleTextIn.h` と `lv_group.h`、`lv_hal_indev.h` の値を定義として置く。

## 抽象モデル

`keystrokeKey` は keystroke を対応表で引いた key で、表に無ければ `none`。LVGL は keypad の
`read_cb` を呼ぶとき `data->key` に前に読んだ key を入れておく（`keyboardRun`）ので、読むたびに
LVGL が見る key は、それまでに表に当たった最後の keystroke の key（`lastKey`）になる。

## 主な定理

* `keyboardRead_some` — `keyboard_read` は表で引いた key を書き、表に無ければ前の key のまま
  押したことにする
* `keyboard_read_reports_last_key` — どの呼び出し列でも、各呼び出しで LVGL が見る key は
  表に当たった最後の keystroke の key で、押したかどうかはその呼び出しの keystroke で決まる
* `keyboardRegister_spec` — `keyboard_register` は keyboard の取れた handle を順に全部登録し、
  一つでもあれば 0 を、無ければ警告を出して -1 を返す
-/

namespace Gui

/-! ## UEFI と LVGL の値 -/

/-- `EFI_INPUT_KEY`。 -/
structure InputKey where
  scanCode : UInt16
  unicodeChar : UInt16
deriving DecidableEq, Repr

/-- `SCAN_UP`、`SCAN_DOWN`、`SCAN_RIGHT`、`SCAN_LEFT`、`SCAN_PAGE_UP`、`SCAN_PAGE_DOWN`。 -/
def scanUp : UInt16 := 0x01
def scanDown : UInt16 := 0x02
def scanRight : UInt16 := 0x03
def scanLeft : UInt16 := 0x04
def scanPageUp : UInt16 := 0x09
def scanPageDown : UInt16 := 0x0A

/-- `LV_KEY_UP`、`LV_KEY_DOWN`、`LV_KEY_RIGHT`、`LV_KEY_LEFT`、`LV_KEY_ENTER`、`LV_KEY_NEXT`、`LV_KEY_PREV`。 -/
def lvKeyUp : UInt32 := 17
def lvKeyDown : UInt32 := 18
def lvKeyRight : UInt32 := 19
def lvKeyLeft : UInt32 := 20
def lvKeyEnter : UInt32 := 10
def lvKeyNext : UInt32 := 9
def lvKeyPrev : UInt32 := 11

/-- `LV_INDEV_STATE_REL`、`LV_INDEV_STATE_PR`。 -/
def stateRel : UInt8 := 0
def statePr : UInt8 := 1

/-- `lv_indev_data_t` のうち `keyboard_read` が書くもの。 -/
structure IndevData where
  key : UInt32
  state : UInt8
deriving DecidableEq, Repr

/-! ## `keyboard_read` -/

/-- 編集中の `switch (p.ScanCode)` の `case`：当たれば key、どの `case` にも当たらなければ `none`。 -/
def editingCase (scan : UInt16) : Option UInt32 :=
  if scan = scanUp ∨ scan = scanLeft then some lvKeyLeft
  else if scan = scanPageUp then some lvKeyUp
  else if scan = scanDown ∨ scan = scanRight then some lvKeyRight
  else if scan = scanPageDown then some lvKeyDown
  else none

/-- 編集中でないときの `switch (p.ScanCode)` の `case`。 -/
def navigationCase (scan : UInt16) : Option UInt32 :=
  if scan = scanUp ∨ scan = scanLeft ∨ scan = scanPageUp then some lvKeyPrev
  else if scan = scanDown ∨ scan = scanRight ∨ scan = scanPageDown then some lvKeyNext
  else none

/-- `switch (p.UnicodeChar)` の `case`：`' '`、`'\n'`、`'\r'` は `LV_KEY_ENTER`。 -/
def charCase (c : UInt16) : Option UInt32 :=
  if c = 0x20 ∨ c = 0x0A ∨ c = 0x0D then some lvKeyEnter else none

/--
`keyboard_read(indev_drv, data)`。`rd` は `ReadKeyStroke` が読んだ keystroke（`EFI_ERROR` なら
`none`）、`editing` は `lv_group_get_editing(gui_grp)`。`switch` がどの `case` にも当たらなければ
`data->key` は書かれない。戻り値はいつも `false`。
-/
def keyboardRead (rd : Option InputKey) (editing : Bool) (data : IndevData) : Bool × IndevData :=
  let data := { data with state := stateRel }
  match rd with
  | none => (false, data)
  | some p =>
    let data := { data with state := 0 }
    if p.scanCode ≠ 0 then
      let key := ((if editing then editingCase else navigationCase) p.scanCode).getD data.key
      (false, { data with key := key, state := statePr })
    else if p.unicodeChar ≠ 0 then
      (false, { data with key := (charCase p.unicodeChar).getD data.key, state := statePr })
    else (false, data)

/-! ## 抽象モデル：keystroke の key -/

/-- keystroke の key。scan code があれば scan code の `case` で、無ければ文字の `case` で引く。 -/
def keystrokeKey (editing : Bool) (p : InputKey) : Option UInt32 :=
  if p.scanCode ≠ 0 then (if editing then editingCase else navigationCase) p.scanCode
  else if p.unicodeChar ≠ 0 then charCase p.unicodeChar
  else none

/-- 押したことになる keystroke：読めて、scan code か文字が 0 でない。 -/
def pressed (rd : Option InputKey) : Bool := rd.any fun p => p.scanCode ≠ 0 ∨ p.unicodeChar ≠ 0

/-- LVGL の移動と決定の key。 -/
def navKeys : List UInt32 := [lvKeyLeft, lvKeyRight, lvKeyUp, lvKeyDown, lvKeyPrev, lvKeyNext, lvKeyEnter]

/-- keystroke の key は、どれも移動か決定の key。 -/
theorem keystrokeKey_mem {editing : Bool} {p : InputKey} {k : UInt32} (h : keystrokeKey editing p = some k) :
    k ∈ navKeys := by
  cases editing <;>
    simp only [keystrokeKey, editingCase, navigationCase, charCase, if_true, Bool.false_eq_true, if_false] at h <;>
    split_ifs at h <;> cases h <;> simp [navKeys]

/--
**`keyboard_read` は keystroke の key を書く。** keystroke が読めれば、その key を書き、どの `case`
にも当たらなければ `data->key` を前のまま残して、scan code か文字が 0 でなければ押したことにする。
-/
theorem keyboardRead_some (p : InputKey) (editing : Bool) (data : IndevData) :
    keyboardRead (some p) editing data =
      (false, ⟨(keystrokeKey editing p).getD data.key, if pressed (some p) then statePr else stateRel⟩) := by
  simp only [keyboardRead, keystrokeKey, pressed, Option.any_some]
  by_cases hs : p.scanCode = 0 <;> by_cases hc : p.unicodeChar = 0 <;> simp [hs, hc, stateRel]

theorem keyboardRead_none (editing : Bool) (data : IndevData) :
    keyboardRead none editing data = (false, ⟨data.key, stateRel⟩) := rfl

/-! ## LVGL が呼び続ける -/

/--
LVGL が keypad の `read_cb` を呼び続ける。呼ぶたびに `data` を 0 にし、`data->key` に前の呼び出しが
書いた key を入れる（`_lv_indev_read`）。呼び出しごとに `keyboard_read` が書いた `data` を返す。
-/
def keyboardRun (k : UInt32) : List (Option InputKey × Bool) → List IndevData
  | [] => []
  | (rd, editing) :: evs =>
    let d := (keyboardRead rd editing ⟨k, stateRel⟩).2
    d :: keyboardRun d.key evs

/-- 読んだ keystroke の列のうち、`case` に当たったものの key の列。 -/
def mappedKeys (evs : List (Option InputKey × Bool)) : List UInt32 :=
  evs.filterMap fun ev => ev.1.bind (keystrokeKey ev.2)

/-- 抽象モデル：読んだ keystroke の列のうち、`case` に当たった最後のものの key。無ければ `k`。 -/
def lastKey (k : UInt32) (evs : List (Option InputKey × Bool)) : UInt32 :=
  (mappedKeys evs).getLast?.getD k

/-- 一回の呼び出しは、表で引いた key か前の key を書き、押したかどうかを書く。 -/
theorem keyboardRead_step (rd : Option InputKey) (editing : Bool) (k : UInt32) (s : UInt8) :
    (keyboardRead rd editing ⟨k, s⟩).2 =
      ⟨(rd.bind (keystrokeKey editing)).getD k, if pressed rd then statePr else stateRel⟩ := by
  cases rd with
  | none => rfl
  | some p => rw [keyboardRead_some]; rfl

@[simp] theorem keyboardRun_length (k : UInt32) :
    ∀ evs : List (Option InputKey × Bool), (keyboardRun k evs).length = evs.length
  | [] => rfl
  | _ :: evs => congrArg (· + 1) (keyboardRun_length _ evs)

theorem mappedKeys_cons (ev : Option InputKey × Bool) (evs : List (Option InputKey × Bool)) :
    mappedKeys (ev :: evs) = (ev.1.bind (keystrokeKey ev.2)).toList ++ mappedKeys evs := by
  simp only [mappedKeys, List.filterMap_cons]
  cases ev.1.bind (keystrokeKey ev.2) <;> rfl

theorem lastKey_nil (k : UInt32) : lastKey k [] = k := rfl

theorem lastKey_cons (k : UInt32) (ev : Option InputKey × Bool) (evs : List (Option InputKey × Bool)) :
    lastKey k (ev :: evs) = lastKey ((ev.1.bind (keystrokeKey ev.2)).getD k) evs := by
  unfold lastKey
  rw [mappedKeys_cons, List.getLast?_append]
  cases ev.1.bind (keystrokeKey ev.2) <;> cases (mappedKeys evs).getLast? <;> rfl

/-- LVGL が見る key は、移動か決定の key か、最初の key。 -/
theorem lastKey_mem (k : UInt32) (evs : List (Option InputKey × Bool)) :
    lastKey k evs ∈ navKeys ∨ lastKey k evs = k := by
  unfold lastKey
  rcases h : (mappedKeys evs).getLast? with _ | k'
  · exact Or.inr rfl
  · obtain ⟨ev, -, hev⟩ := List.mem_filterMap.mp (List.mem_of_getLast?_eq_some h)
    obtain ⟨p, -, hp⟩ := Option.bind_eq_some.mp hev
    exact Or.inl (keystrokeKey_mem hp)

theorem keyboardRun_append (k : UInt32) : ∀ (pre evs : List (Option InputKey × Bool)),
    keyboardRun k (pre ++ evs) = keyboardRun k pre ++ keyboardRun (lastKey k pre) evs
  | [], _ => rfl
  | (rd, editing) :: pre, evs => by
    simp only [List.cons_append, keyboardRun, keyboardRead_step, lastKey_cons]
    exact congrArg _ (keyboardRun_append _ pre evs)

/--
**LVGL が見る key は、表に当たった最後の keystroke の key。**

どんな呼び出しの列でも、`i` 番目の呼び出しの後に LVGL が見る key は、それまでの keystroke の
うち `case` に当たった最後のものの key（一つも無ければ最初の key）で、押したことになるのは
その呼び出しで scan code か文字が 0 でない keystroke が読めたときだけ。その key は移動か決定の
key か最初の key なので、LVGL に文字や `ESC` が届くことはなく、`case` に無い key（文字や
`ESC`）を押すと、LVGL には前に押した key がもう一度押されたように見える。
-/
theorem keyboard_read_reports_last_key (k : UInt32) (pre : List (Option InputKey × Bool))
    (ev : Option InputKey × Bool) (post : List (Option InputKey × Bool)) :
    (keyboardRun k (pre ++ ev :: post))[pre.length]? =
      some ⟨lastKey k (pre ++ [ev]), if pressed ev.1 then statePr else stateRel⟩ ∧
      (lastKey k (pre ++ [ev]) ∈ navKeys ∨ lastKey k (pre ++ [ev]) = k) := by
  refine ⟨?_, lastKey_mem k _⟩
  obtain ⟨rd, editing⟩ := ev
  rw [keyboardRun_append, List.getElem?_append_right (le_of_eq (keyboardRun_length k pre))]
  simp only [keyboardRun_length, Nat.sub_self, keyboardRun, List.getElem?_cons_zero, keyboardRead_step]
  congr 2
  induction pre generalizing k with
  | nil => simp only [List.nil_append, lastKey_cons, lastKey_nil]
  | cons e pre ih => rw [List.cons_append, lastKey_cons, lastKey_cons, ih]

/-- `Enter` の後に `a` を押すと、LVGL にはもう一度 `Enter` が押されたように見える。 -/
example : keyboardRun lvKeyLeft [(some ⟨0, 0x0D⟩, false), (none, false), (some ⟨0, 0x61⟩, false)] =
    [⟨lvKeyEnter, statePr⟩, ⟨lvKeyEnter, stateRel⟩, ⟨lvKeyEnter, statePr⟩] := by
  decide

/-! ## `keyboard_register` -/

/-- log の重さ：`trlog_warn`、`tlog_debug`。 -/
inductive Level
  | warn
  | debug
deriving DecidableEq, Repr

/-- log の一行：重さ、書式、引数。 -/
structure LogLine where
  level : Level
  fmt : String
  args : List Nat
deriving DecidableEq, Repr

/-- `keyboard_register` のループが持つもの：`found`、登録した driver の `user_data`、出した log。 -/
structure RegState where
  found : Bool
  drivers : List Nat
  log : List LogLine
deriving DecidableEq, Repr

/--
ループの一周。`HandleProtocol` が失敗するか NULL を返せば `continue`、そうでなければ keypad の
driver を作って登録し、debug の log を出す。
-/
def registerStep (handleProtocol : Nat → Except UInt64 Nat) (s : RegState) (h : Nat) : RegState :=
  match handleProtocol h with
  | .error _ => s
  | .ok kb =>
    if kb = 0 then s
    else ⟨true, s.drivers ++ [kb], s.log ++ [⟨.debug, "found uefi keyboard %p", [kb]⟩]⟩

/--
`keyboard_register()`。`located` は `LocateHandleBuffer` が返した handle の列（`EFI_ERROR` なら
その status）、`handleProtocol h` は `HandleProtocol` が返した keyboard の番地（失敗ならその status）。
戻り値と、ループの後の状態。
-/
def keyboardRegister (located : Except UInt64 (List Nat)) (handleProtocol : Nat → Except UInt64 Nat) :
    Int × RegState :=
  match located with
  | .error st => (-1, ⟨false, [], [⟨.warn, "locate keyboard failed: %lld", [st.toNat]⟩]⟩)
  | .ok hands =>
    let s := hands.foldl (registerStep handleProtocol) ⟨false, [], []⟩
    if s.found then (0, s) else (-1, { s with log := s.log ++ [⟨.warn, "no uefi keyboard found", []⟩] })

/-- handle から開けた keyboard（失敗か NULL なら `none`）。 -/
def openedKeyboard (handleProtocol : Nat → Except UInt64 Nat) (h : Nat) : Option Nat :=
  match handleProtocol h with
  | .error _ => none
  | .ok kb => if kb = 0 then none else some kb

/--
ループは開けた keyboard を順に足し、足すたびに debug の log を一行出し、一つでも足せば `found` を
立てる。
-/
theorem foldl_registerStep (handleProtocol : Nat → Except UInt64 Nat) : ∀ (hands : List Nat) (s : RegState),
    let r := hands.foldl (registerStep handleProtocol) s
    r.drivers = s.drivers ++ hands.filterMap (openedKeyboard handleProtocol) ∧
      r.log = s.log ++ (hands.filterMap (openedKeyboard handleProtocol)).map
        (fun kb => ⟨.debug, "found uefi keyboard %p", [kb]⟩) ∧
      (r.found = true ↔ s.found = true ∨ hands.filterMap (openedKeyboard handleProtocol) ≠ [])
  | [], s => by simp
  | h :: hands, s => by
    obtain ⟨ih₁, ih₂, ih₃⟩ := foldl_registerStep handleProtocol hands (registerStep handleProtocol s h)
    simp only [List.foldl_cons, ih₁, ih₂, ih₃, List.filterMap_cons]
    unfold registerStep openedKeyboard
    rcases handleProtocol h with e | kb
    · exact ⟨rfl, rfl, Iff.rfl⟩
    · by_cases hk : kb = 0
      · simp [hk]
      · simp [hk]

/--
**`keyboard_register` は開けた keyboard を全部登録する。** handle が取れれば、`HandleProtocol` で
開けた keyboard を handle の順に全部登録し、一つ登録するたびに debug の log を出す。一つでも
登録すれば 0 を返し、一つも無ければ `no uefi keyboard found` の警告を出して -1 を返す。handle が
取れなければ `locate keyboard failed` の警告だけを出して -1 を返し、何も登録しない。
-/
theorem keyboardRegister_spec (located : Except UInt64 (List Nat)) (handleProtocol : Nat → Except UInt64 Nat) :
    (keyboardRegister located handleProtocol).2.drivers = (match located with
      | .ok hands => hands.filterMap (openedKeyboard handleProtocol)
      | .error _ => []) ∧
      (keyboardRegister located handleProtocol).1 =
        (if (keyboardRegister located handleProtocol).2.drivers = [] then -1 else 0) ∧
      (keyboardRegister located handleProtocol).2.log = (match located with
        | .ok hands =>
          (hands.filterMap (openedKeyboard handleProtocol)).map
              (fun kb => ⟨.debug, "found uefi keyboard %p", [kb]⟩) ++
            if hands.filterMap (openedKeyboard handleProtocol) = [] then [⟨.warn, "no uefi keyboard found", []⟩]
            else []
        | .error st => [⟨.warn, "locate keyboard failed: %lld", [st.toNat]⟩]) := by
  rcases located with st | hands
  · exact ⟨rfl, rfl, rfl⟩
  · obtain ⟨h₁, h₂, h₃⟩ := foldl_registerStep handleProtocol hands ⟨false, [], []⟩
    simp only [keyboardRegister]
    split
    · next hf =>
      have hne : hands.filterMap (openedKeyboard handleProtocol) ≠ [] := by simpa using h₃.mp hf
      simp [h₁, h₂, hne]
    · next hf =>
      have he : hands.filterMap (openedKeyboard handleProtocol) = [] := by
        by_contra hne
        exact hf (h₃.mpr (.inr hne))
      simp [h₁, h₂, he]

end Gui
