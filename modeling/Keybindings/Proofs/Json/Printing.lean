import Keybindings.Json.Printer
import Keybindings.Proofs.Json.Layout
import Keybindings.Proofs.Json.Values

/-!
Reading undoes printing.

`ReadsAs n t v` says that the text `t` is read as the value `v` wherever a value may begin and `n`
more containers may be opened.  The words, the strings and the integers of 64 bits are read as they
were printed, and so are arrays and objects of what is: an object comes back with its members in the
order of the keys.  So a value that was read and holds no double is read again from its printed form
(`readsAs_prettyAt`).
-/

namespace Keybindings.Json

/-! ### Values without doubles -/

namespace Value

mutual

/-- Whether none of the numbers in a value is a double. -/
def isExact : Value → Bool
  | .number (.float _) => false
  | .array vs => itemsExact vs
  | .object ms => membersExact ms
  | _ => true

def itemsExact : List Value → Bool
  | [] => true
  | v :: vs => isExact v && itemsExact vs

def membersExact : List (String × Value) → Bool
  | [] => true
  | (_, v) :: ms => isExact v && membersExact ms

end

@[simp] theorem isExact_array {vs : List Value} :
    (array vs).isExact = true ↔ ∀ v ∈ vs, v.isExact = true := by
  show itemsExact vs = true ↔ _
  induction vs with
  | nil => simp [itemsExact]
  | cons v vs ih => simp [itemsExact, ih]

@[simp] theorem isExact_object {ms : List (String × Value)} :
    (object ms).isExact = true ↔ ∀ m ∈ ms, m.2.isExact = true := by
  show membersExact ms = true ↔ _
  induction ms with
  | nil => simp [membersExact]
  | cons m ms ih => simp [membersExact, ih]

end Value

namespace State

/-! ### Strings -/

theorem hexValue?_hexDigit (n : Nat) : hexValue? (hexDigit n) = some (n % 16) := by
  have hdigits : ∀ d < 16, hexValue? (Nat.digitChar d) = some d := by decide
  exact hdigits (n % 16) (Nat.mod_lt n (by decide))

theorem utf8Size_hexDigit (n : Nat) : (hexDigit n).utf8Size = 1 := by
  have hdigits : ∀ d < 16, (Nat.digitChar d).utf8Size = 1 := by decide
  exact hdigits (n % 16) (Nat.mod_lt n (by decide))

/-- A control character as four digits after `u`. -/
theorem feed_hexEscape {fs : List Frame} {asKey : Bool} {chars : List Char} {n : Nat}
    (h : n < 0x20) :
    (⟨fs, .string asKey chars .none⟩ : State).feed
        ['\\', 'u', '0', '0', hexDigit (n / 16), hexDigit n] =
      some ⟨fs, .string asKey (Char.ofNat n :: chars) .none⟩ := by
  have hprefix : (⟨fs, .string asKey chars .none⟩ : State).feed ['\\', 'u', '0', '0'] =
      some ⟨fs, .string asKey chars (.hex none 2 (some 0))⟩ := rfl
  have hthird : (⟨fs, .string asKey chars (.hex none 2 (some 0))⟩ : State).next?
      (hexDigit (n / 16)) = some ⟨fs, .string asKey chars (.hex none 3 (some (n / 16)))⟩ := by
    have hmod : n / 16 % 16 = n / 16 := Nat.mod_eq_of_lt (by omega)
    rw [next?_eq_take (by simp), toOption_eq_some]
    simp [take, inString, hexValue?_hexDigit, utf8Size_hexDigit, hmod]
  have hlast : (⟨fs, .string asKey chars (.hex none 3 (some (n / 16)))⟩ : State).next?
      (hexDigit n) = some ⟨fs, .string asKey (Char.ofNat n :: chars) .none⟩ := by
    have hvalue : n / 16 * 16 + n % 16 = n := Nat.div_add_mod' n 16
    have hlow : ¬ (0xDC00 ≤ n ∧ n ≤ 0xDFFF) := by omega
    have hhigh : ¬ (0xD800 ≤ n ∧ n ≤ 0xDBFF) := by omega
    rw [next?_eq_take (by simp), toOption_eq_some]
    simp [take, inString, closeHex, hexValue?_hexDigit, utf8Size_hexDigit, hvalue, hlow, hhigh]
  show (State.feed _ (['\\', 'u', '0', '0'] ++ [hexDigit (n / 16), hexDigit n])) = _
  rw [feed_append, hprefix, Option.bind_some, feed_cons, hthird, Option.bind_some, feed_cons, hlast]
  rfl

/-- An escaped character is read as the character. -/
theorem feed_escapeChar (fs : List Frame) (asKey : Bool) (chars : List Char) (c : Char) :
    (⟨fs, .string asKey chars .none⟩ : State).feed (escapeChar c) =
      some ⟨fs, .string asKey (c :: chars) .none⟩ := by
  have hnat : ∀ {n : Nat}, c.toNat = n → c = Char.ofNat n := fun h => by
    rw [← h, Char.ofNat_toNat]
  rw [escapeChar]
  split_ifs with hquote hslash hb ht hn hf hr hcontrol
  · subst hquote
    rfl
  · subst hslash
    rfl
  · rw [hnat hb]
    rfl
  · rw [hnat ht]
    rfl
  · rw [hnat hn]
    rfl
  · rw [hnat hf]
    rfl
  · rw [hnat hr]
    rfl
  · rw [feed_hexEscape hcontrol, Char.ofNat_toNat]
  · rw [feed_cons, next?_eq_take (by simp)]
    simp only [take, inString, if_neg hquote, if_neg hslash, if_neg hcontrol]
    rfl

theorem feed_escaped (fs : List Frame) (asKey : Bool) (chars t : List Char) :
    (⟨fs, .string asKey chars .none⟩ : State).feed (t.flatMap escapeChar) =
      some ⟨fs, .string asKey (t.reverse ++ chars) .none⟩ := by
  induction t generalizing chars with
  | nil => rfl
  | cons c t ih =>
      rw [List.flatMap_cons, feed_append, feed_escapeChar, Option.bind_some, ih]
      simp

/-- From its opening quote on, a string is read as what was printed. -/
theorem feed_printString {s : State} {fs : List Frame} {asKey : Bool}
    (h : s.next? '"' = some ⟨fs, .string asKey [] .none⟩) (text : String) :
    s.feed (printString text) = some (closeString fs asKey text.toList.reverse) := by
  have hclose : (⟨fs, .string asKey (text.toList.reverse ++ []) .none⟩ : State).next? '"' =
      some (closeString fs asKey (text.toList.reverse ++ [])) := rfl
  rw [printString, List.cons_append, feed_cons, h, Option.bind_some, feed_append, feed_escaped,
    Option.bind_some, feed_cons, hclose, Option.bind_some, feed_nil, List.append_nil]

/-! ### Integers -/

theorem digit?_digitChar {d : Nat} (h : d < 10) :
    Numeral.digit? (Nat.digitChar d) = some d := by
  have hdigits : ∀ d < 10, Numeral.digit? (Nat.digitChar d) = some d := by decide
  exact hdigits d h

theorem next?_digit {fs : List Frame} {m : Mode} (hm : m.BeginsValue) {c : Char} {d : Nat}
    (h : Numeral.digit? c = some d) :
    (⟨fs, m⟩ : State).next? c = some ⟨fs, .numeral (.first false d)⟩ := by
  -- nothing else that a value begins with is a digit
  have hne : ∀ c', Numeral.digit? c' = none → c ≠ c' := by
    rintro c' hc' rfl
    rw [h] at hc'
    cases hc'
  have hgap : isGap c = false := by
    simp [isGap, hne ' ' rfl, hne '\t' rfl, hne '\n' rfl, hne '\r' rfl]
  rw [next?_beginValue hm hgap (hne ']' rfl), toOption_eq_some]
  simp only [beginValue, if_neg (hne 'n' rfl), if_neg (hne 't' rfl), if_neg (hne 'f' rfl),
    if_neg (hne '-' rfl), if_neg (hne '"' rfl), if_neg (hne '[' rfl), if_neg (hne '{' rfl), h]

/-- The digits of a number are read as the number, from wherever its first digit is. -/
theorem feed_toDigits {s : State} {fs : List Frame} {negative : Bool}
    (hs : ∀ c d, Numeral.digit? c = some d → s.next? c = some ⟨fs, .numeral (.first negative d)⟩)
    {n : Nat} (hn : n ≤ Numeral.maxSignificand) :
    s.feed (Nat.toDigits 10 n) = some ⟨fs, .numeral (.first negative n)⟩ := by
  induction n using Nat.strongRecOn with
  | ind n ih =>
      -- the digits but the last are those of `n / 10`, which is not zero if there are any
      by_cases hlt : n < 10
      · rw [Nat.toDigits_of_lt_base hlt, feed_cons, hs _ n (digit?_digitChar hlt)]
        rfl
      · have hten : 10 ≤ n := not_lt.mp hlt
        have hpos : n / 10 ≠ 0 := by omega
        have hne : n ≠ 0 := by omega
        have hvalue : n / 10 * 10 + n % 10 = n := by omega
        have hfits : Numeral.fits (n / 10) (n % 10) = true := by
          simpa only [Numeral.fits, hvalue, decide_eq_true_eq] using hn
        have hadvance : (Numeral.first negative (n / 10)).advance (Nat.digitChar (n % 10)) =
            .ok (some (.first negative n)) := by
          simp only [Numeral.first, if_neg hpos, if_neg hne, Numeral.advance,
            digit?_digitChar (Nat.mod_lt n (by decide)), hfits, hvalue, if_true]
        have hfront := ih (n / 10) (by omega) (by omega)
        rw [Nat.toDigits_of_base_le (by decide) hten, feed_append, hfront, Option.bind_some,
          feed_cons, next?_numeral_some hadvance]
        rfl

/-! ### Values -/

/-- In `s` the value `v` was read inside `fs`, save that a number could go on. -/
structure Yields (s : State) (fs : List Frame) (v : Value) : Prop where
  value?_eq : s.value? = (complete fs v).value?
  next?_eq : ∀ c, c = ',' ∨ c = '\n' → s.next? c = (complete fs v).next? c

theorem Yields.refl (fs : List Frame) (v : Value) : (complete fs v).Yields fs v :=
  ⟨rfl, fun _ _ => rfl⟩

theorem Yields.feed_cons {s : State} {fs : List Frame} {v : Value} (h : s.Yields fs v) {c : Char}
    (hc : c = ',' ∨ c = '\n') (t : Text) : s.feed (c :: t) = (complete fs v).feed (c :: t) := by
  rw [State.feed_cons, State.feed_cons, h.next?_eq c hc]

theorem yields_first {negative : Bool} {n : Nat} {i : Int}
    (hi : Numeral.integer negative n = .ok (.int i)) (fs : List Frame) :
    (⟨fs, .numeral (.first negative n)⟩ : State).Yields fs (.number (.int i)) := by
  have hfinish : (Numeral.first negative n).finish = .ok (.int i) := by
    rw [← hi, Numeral.first]
    split
    · next hzero => rw [hzero, Numeral.finish]
    · rw [Numeral.finish]
  have hadvance : ∀ c, c = ',' ∨ c = '\n' → (Numeral.first negative n).advance c = .ok none := by
    rintro c (rfl | rfl) <;> rw [Numeral.first] <;> split <;> rfl
  exact ⟨value?_numeral hfinish, fun c hc => next?_numeral_none (hadvance c hc) hfinish⟩

/-- The text is read as the value wherever a value may begin and `n` more containers may be
opened. -/
def ReadsAs (n : Nat) (t : Text) (v : Value) : Prop :=
  ∀ (fs : List Frame) (m : Mode), m.BeginsValue → n ≤ room fs →
    ∃ s : State, (⟨fs, m⟩ : State).feed t = some s ∧ s.Yields fs v

theorem readsAs_printString (n : Nat) (text : String) :
    ReadsAs n (printString text) (.string text) := by
  intro fs m hm _
  have hquote : (⟨fs, m⟩ : State).next? '"' = some ⟨fs, .string false [] .none⟩ :=
    next?_beginValue hm rfl (by decide)
  refine ⟨complete fs (.string text), ?_, .refl _ _⟩
  rw [feed_printString hquote]
  simp [closeString]

theorem readsAs_printInt (n : Nat) {i : Int} (hi : IsWord i) :
    ReadsAs n (printInt i) (.number (.int i)) := by
  intro fs m hm _
  obtain ⟨hlow, hhigh⟩ := hi
  rw [printInt]
  split
  · next hneg =>
    have hminus : (⟨fs, m⟩ : State).next? '-' = some ⟨fs, .numeral .minus⟩ :=
      next?_beginValue hm rfl (by decide)
    have hdigit : ∀ c d, Numeral.digit? c = some d →
        (⟨fs, .numeral .minus⟩ : State).next? c = some ⟨fs, .numeral (.first true d)⟩ :=
      fun c d h => next?_numeral_some (by rw [Numeral.advance, h])
    refine ⟨⟨fs, .numeral (.first true i.natAbs)⟩, ?_, yields_first ?_ fs⟩
    · rw [feed_cons, hminus, Option.bind_some, feed_toDigits hdigit]
      simp only [Numeral.maxSignificand] at *
      omega
    · have hsize : ¬ (i.natAbs = 0 ∨ 0x8000000000000000 < i.natAbs) := by omega
      have hvalue : -(i.natAbs : Int) = i := by omega
      simp only [Numeral.integer, Bool.not_true, Bool.false_eq_true, if_false, if_neg hsize, hvalue]
  · next hpos =>
    refine ⟨⟨fs, .numeral (.first false i.natAbs)⟩, ?_, yields_first ?_ fs⟩
    · rw [feed_toDigits fun c d h => next?_digit hm h]
      simp only [Numeral.maxSignificand] at *
      omega
    · have hvalue : (i.natAbs : Int) = i := by omega
      simp only [Numeral.integer, Bool.not_false, if_true, hvalue]

/-! ### Arrays and objects -/

theorem isGapText_newLine (level : Nat) : IsGapText (Value.newLine level) := by
  intro c hc
  rcases List.mem_cons.mp hc with rfl | hc
  · rfl
  · rw [List.eq_of_mem_replicate hc]
    rfl

theorem room_cons {n : Nat} {fs : List Frame} (h : n + 1 ≤ room fs) (f : Frame) :
    n ≤ room (f :: fs) :=
  Nat.le_sub_of_add_le (by simp only [room, List.length_cons] at *; omega)

/-- The line with the bracket that closes a container. -/
theorem Yields.feed_close {s s' : State} {fs : List Frame} {v : Value} (h : s.Yields fs v)
    {level : Nat} {c : Char} (hne : fs ≠ []) (hc : (complete fs v).next? c = some s') :
    s.feed (Value.newLine level ++ [c]) = some s' := by
  have hgap : (complete fs v).feed (Value.newLine level) = some (complete fs v) := by
    obtain ⟨f, fs, rfl⟩ := List.exists_cons_of_ne_nil hne
    cases f <;> exact feed_gap (m := .after) trivial (isGapText_newLine level)
  have hstart : s.feed (Value.newLine level ++ [c]) =
      (complete fs v).feed (Value.newLine level ++ [c]) := h.feed_cons (.inr rfl) _
  rw [hstart, feed_append, hgap, Option.bind_some, State.feed_cons, hc]
  rfl

section Items

variable {α : Type} {f g : α → Value} {n level : Nat} {fs : List Frame}

theorem feed_prettyItems {xs : List α}
    (h : ∀ x ∈ xs, ReadsAs n ((g x).prettyAt (level + 1)) (f x)) (hroom : n + 1 ≤ room fs)
    {s : State} {items : List Value} {v : Value} (hs : s.Yields (.array items :: fs) v) :
    s.feed (Value.prettyItems level (xs.map g)) =
      some (complete fs (.array (items.reverse ++ v :: xs.map f))) := by
  induction xs generalizing s items v with
  | nil =>
      have hclose : (complete (.array items :: fs) v).next? ']' =
          some (complete fs (.array (v :: items).reverse)) := rfl
      rw [List.map_nil, Value.prettyItems, hs.feed_close (by simp) hclose]
      simp
  | cons x xs ih =>
      have hcomma : (complete (.array items :: fs) v).next? ',' =
          some ⟨.array (v :: items) :: fs, .item⟩ := rfl
      obtain ⟨s', hfeed, hs'⟩ := h x List.mem_cons_self (.array (v :: items) :: fs) .item trivial
        (room_cons hroom _)
      rw [List.map_cons, Value.prettyItems, List.cons_append, List.cons_append,
        hs.feed_cons (.inl rfl), feed_cons, hcomma, Option.bind_some, feed_append, feed_append,
        feed_gap (m := .item) trivial (isGapText_newLine _), Option.bind_some, hfeed,
        Option.bind_some, ih (fun y hy => h y (List.mem_cons_of_mem x hy)) hs']
      simp

theorem readsAs_array {xs : List α} (h : ∀ x ∈ xs, ReadsAs n ((g x).prettyAt (level + 1)) (f x)) :
    ReadsAs (n + 1) ((Value.array (xs.map g)).prettyAt level) (.array (xs.map f)) := by
  intro fs m hm hroom
  have hopen : (⟨fs, m⟩ : State).next? '[' = some ⟨.array [] :: fs, .firstItem⟩ := by
    rw [next?_beginValue hm rfl (by decide), toOption_eq_some]
    exact if_pos (Nat.lt_of_sub_pos (Nat.lt_of_lt_of_le n.succ_pos hroom))
  refine ⟨complete fs (.array (xs.map f)), ?_, .refl _ _⟩
  cases xs with
  | nil =>
      have hclose : (⟨.array [] :: fs, .firstItem⟩ : State).next? ']' =
          some (complete fs (.array [])) := rfl
      rw [List.map_nil, Value.prettyAt, feed_cons, hopen, Option.bind_some, feed_cons, hclose]
      rfl
  | cons x xs =>
      obtain ⟨s, hfeed, hs⟩ := h x List.mem_cons_self (.array [] :: fs) .firstItem trivial
        (room_cons hroom _)
      rw [List.map_cons, Value.prettyAt, List.cons_append, List.cons_append, feed_cons, hopen,
        Option.bind_some, feed_append, feed_append,
        feed_gap (m := .firstItem) trivial (isGapText_newLine _), Option.bind_some, hfeed,
        Option.bind_some,
        feed_prettyItems (fun y hy => h y (List.mem_cons_of_mem x hy)) hroom hs]
      rfl

end Items

section Members

variable {n level : Nat} {fs : List Frame}

/-- A member from the line break before it on, where a key may stand. -/
theorem feed_member {k : String} {v : Value} (h : ReadsAs n (v.prettyAt (level + 1)) v)
    (hroom : n + 1 ≤ room fs) {m : Mode} (hm : m = .firstKey ∨ m = .key) (members : Members)
    (key : String) :
    ∃ s : State, (⟨.object members key :: fs, m⟩ : State).feed
        (Value.newLine (level + 1) ++ printString k ++ ':' :: ' ' :: v.prettyAt (level + 1)) =
      some s ∧ s.Yields (.object members k :: fs) v := by
  have hgap : m.SkipsGaps := by
    rcases hm with rfl | rfl <;> trivial
  have hquote : (⟨.object members key :: fs, m⟩ : State).next? '"' =
      some ⟨.object members key :: fs, .string true [] .none⟩ := by
    rcases hm with rfl | rfl <;> rfl
  have hkey : closeString (.object members key :: fs) true k.toList.reverse =
      ⟨.object members k :: fs, .colon⟩ := by
    simp [closeString]
  have hcolon : (⟨.object members k :: fs, .colon⟩ : State).feed [':', ' '] =
      some ⟨.object members k :: fs, .value⟩ := rfl
  obtain ⟨s, hfeed, hs⟩ := h (.object members k :: fs) .value trivial (room_cons hroom _)
  refine ⟨s, ?_, hs⟩
  show State.feed _ (_ ++ ([':', ' '] ++ _)) = _
  rw [feed_append, feed_append, feed_gap hgap (isGapText_newLine _), Option.bind_some,
    feed_printString hquote, Option.bind_some, hkey, feed_append, hcolon, Option.bind_some, hfeed]

theorem feed_prettyMembers {ms : List (String × Value)}
    (h : ∀ m ∈ ms, ReadsAs n (m.2.prettyAt (level + 1)) m.2) (hroom : n + 1 ≤ room fs)
    {s : State} {members : Members} {key : String} {v : Value}
    (hs : s.Yields (.object members key :: fs) v) :
    s.feed (Value.prettyMembers level ms) = some (complete fs
      (.object (ms.foldl (fun d (k, v) => Dictionary.insert k v d) (members.insert key v)))) := by
  induction ms generalizing s members key v with
  | nil =>
      have hclose : (complete (.object members key :: fs) v).next? '}' =
          some (complete fs (.object (members.insert key v))) := rfl
      rw [Value.prettyMembers, hs.feed_close (by simp) hclose]
      rfl
  | cons m ms ih =>
      have hcomma : (complete (.object members key :: fs) v).next? ',' =
          some ⟨.object (members.insert key v) key :: fs, .key⟩ := rfl
      obtain ⟨s', hfeed, hs'⟩ := feed_member (k := m.1) (h m List.mem_cons_self) hroom (.inr rfl)
        (members.insert key v) key
      rw [Value.prettyMembers, List.cons_append, List.cons_append, List.cons_append,
        hs.feed_cons (.inl rfl), feed_cons, hcomma, Option.bind_some, feed_append, hfeed,
        Option.bind_some, ih (fun p hp => h p (List.mem_cons_of_mem m hp)) hs', List.foldl_cons]

theorem readsAs_object {ms : List (String × Value)}
    (h : ∀ m ∈ ms, ReadsAs n (m.2.prettyAt (level + 1)) m.2) :
    ReadsAs (n + 1) ((Value.object ms).prettyAt level) (.object (Dictionary.ofList ms)) := by
  intro fs m hm hroom
  have hopen : (⟨fs, m⟩ : State).next? '{' = some ⟨.object [] "" :: fs, .firstKey⟩ :=
    next?_brace hm (Nat.lt_of_sub_pos (Nat.lt_of_lt_of_le n.succ_pos hroom))
  refine ⟨complete fs (.object (Dictionary.ofList ms)), ?_, .refl _ _⟩
  cases ms with
  | nil =>
      have hclose : (⟨.object [] "" :: fs, .firstKey⟩ : State).next? '}' =
          some (complete fs (.object [])) := rfl
      rw [Value.prettyAt, feed_cons, hopen, Option.bind_some, feed_cons, hclose]
      rfl
  | cons p ms =>
      obtain ⟨s, hfeed, hs⟩ := feed_member (k := p.1) (h p List.mem_cons_self) hroom (.inl rfl)
        [] ""
      rw [Value.prettyAt, List.cons_append, List.cons_append, List.cons_append, feed_cons, hopen,
        Option.bind_some, feed_append, hfeed, Option.bind_some,
        feed_prettyMembers (fun q hq => h q (List.mem_cons_of_mem p hq)) hroom hs]
      rfl

end Members

/-! ### Whole texts -/

theorem readsAs_word (n : Nat) {c : Char} {t : Text} {v : Value} (hgap : isGap c = false)
    (hc : c ≠ ']')
    (h : ∀ fs, (beginValue fs c).toOption.bind (fun s => s.feed t) = some (complete fs v)) :
    ReadsAs n (c :: t) v := by
  intro fs m hm _
  refine ⟨complete fs v, ?_, .refl _ _⟩
  rw [feed_cons, next?_beginValue hm hgap hc, h]

/-- What a text can hold is read again from its printed form. -/
theorem readsAs_prettyAt {n : Nat} {v : Value} (hfits : v.Fits n) (hexact : v.isExact)
    (level : Nat) : ReadsAs n (v.prettyAt level) v := by
  induction hfits generalizing level with
  | @null n => exact readsAs_word n rfl (by decide) fun _ => rfl
  | @bool n b => cases b <;> exact readsAs_word n rfl (by decide) fun _ => rfl
  | int hi => exact readsAs_printInt _ hi
  | float => cases hexact
  | string => exact readsAs_printString _ _
  | @array n vs _ ih =>
      have hitems := Value.isExact_array.mp hexact
      have h : ReadsAs (n + 1) ((Value.array (vs.map id)).prettyAt level) (.array (vs.map id)) :=
        readsAs_array fun v hv => ih v hv (hitems v hv) (level + 1)
      rwa [List.map_id] at h
  | @object n ms hsorted _ ih =>
      have hmembers := Value.isExact_object.mp hexact
      have h : ReadsAs (n + 1) ((Value.object ms).prettyAt level)
          (.object (Dictionary.ofList ms)) :=
        readsAs_object fun m hm => ih m hm (hmembers m hm) (level + 1)
      rwa [Dictionary.ofList_eq_self hsorted] at h

end State

/-- At the top of a text all containers may be opened. -/
theorem read_of_readsAs {t : Text} {v : Value} (h : State.ReadsAs maxDepth t v) :
    read t = .ok v := by
  obtain ⟨s, hfeed, hs⟩ := h [] .value trivial (Nat.le_refl _)
  exact read_eq_ok_iff.mpr ⟨s, hfeed, hs.value?_eq⟩

end Keybindings.Json
