import WinAirPlay.Foundations.ByteBuffer

/-! # Formatted input

A conversion skips white space and then reads its input item: the longest part of the input that is a
matching text or can be continued to one. If the item itself is no matching text, the conversion
fails and with it the rest of the format. An item may end in the middle of a number: `1e` can be
continued to `1e5`, so `%f` reads it, and fails.

* `Scanner` is an automaton for the matching texts of a conversion, `scan` reads an item with it.
* `IsItem` says what the item is in terms of the matching texts alone; `scan_eq_some` is that `scan`
  finds it.
* `sscanf` runs a format, `Converts` is that every directive of the format succeeds.
* `unsignedScanner` and `floatScanner` are `%u` and `%f`.
-/

namespace Foundations.Scanf
open Foundations.ByteBuffer
set_option autoImplicit false

/-! ## Items -/

section
variable {α : Type}

/-- An automaton for the matching texts of a conversion. Every state can be continued to an accepting
one, so that a text can be read exactly if it can be continued to a match. -/
structure Scanner (α : Type) where
  State : Type
  start : State
  step : State → α → Option State
  accepts : State → Bool
  live : ∀ s, ∃ (text : List α) (s' : State), text.foldlM step s = some s' ∧ accepts s' = true

variable (scanner : Scanner α) {s s' : scanner.State} {input item rest : List α}

def Scanner.Matches (text : List α) : Prop :=
  ∃ s, text.foldlM scanner.step scanner.start = some s ∧ scanner.accepts s = true

/-- What is read from a state on, the state after it and the rest of the input. -/
def Scanner.consume (s : scanner.State) : List α → List α × scanner.State × List α
  | [] => ([], s, [])
  | c :: rest =>
    match scanner.step s c with
    | none => ([], s, c :: rest)
    | some s' =>
      let r := consume s' rest
      (c :: r.1, r.2)

/-- The item at the start of the input and the rest of the input, unless it does not match. -/
def Scanner.scan (skip : α → Bool) (input : List α) : Option (List α × List α) :=
  let r := scanner.consume scanner.start (input.dropWhile skip)
  if scanner.accepts r.2.1 then some (r.1, r.2.2) else none

/-- The input starts with a matching item, and no longer part of it can be continued to a match. -/
structure IsItem (skip : α → Bool) (input item rest : List α) : Prop where
  split : input.dropWhile skip = item ++ rest
  matched : scanner.Matches item
  longest : ∀ c after, rest = c :: after → ∀ more, ¬ scanner.Matches (item ++ c :: more)

variable {scanner}

theorem consume_split (s : scanner.State) (input : List α) :
    (scanner.consume s input).1 ++ (scanner.consume s input).2.2 = input := by
  induction input generalizing s with
  | nil => rfl
  | cons c input ih =>
    rw [Scanner.consume]
    cases h : scanner.step s c with
    | none => rfl
    | some s' => exact congrArg (c :: ·) (ih s')

theorem consume_foldlM (s : scanner.State) (input : List α) :
    (scanner.consume s input).1.foldlM scanner.step s = some (scanner.consume s input).2.1 := by
  induction input generalizing s with
  | nil => rfl
  | cons c input ih =>
    rw [Scanner.consume]
    cases h : scanner.step s c with
    | none => rfl
    | some s' =>
      dsimp only
      rw [List.foldlM_cons, h]
      exact ih s'

theorem consume_stops {c : α} (h : (scanner.consume s input).2.2 = c :: rest) :
    scanner.step (scanner.consume s input).2.1 c = none := by
  induction input generalizing s with
  | nil => exact absurd h (by simp [Scanner.consume])
  | cons x input ih =>
    cases hx : scanner.step s x with
    | none =>
      simp only [Scanner.consume, hx] at h ⊢
      obtain ⟨rfl, -⟩ := List.cons.inj h
      exact hx
    | some s' =>
      simp only [Scanner.consume, hx] at h ⊢
      exact ih h

theorem consume_append (h : item.foldlM scanner.step s = some s') (rest : List α) :
    scanner.consume s (item ++ rest) =
      (item ++ (scanner.consume s' rest).1, (scanner.consume s' rest).2) := by
  induction item generalizing s with
  | nil =>
    obtain rfl : s = s' := by simpa using h
    rfl
  | cons c item ih =>
    rw [List.foldlM_cons] at h
    cases hc : scanner.step s c with
    | none =>
      rw [hc] at h
      exact absurd h (by simp)
    | some next =>
      rw [hc] at h
      rw [List.cons_append, Scanner.consume, hc]
      dsimp only
      rw [ih h, List.cons_append]

/-- A scanner reads exactly the item. -/
theorem scan_eq_some {skip : α → Bool} :
    scanner.scan skip input = some (item, rest) ↔ IsItem scanner skip input item rest := by
  unfold Scanner.scan
  dsimp only
  constructor
  · intro h
    split at h
    · next haccepts =>
      obtain ⟨rfl, rfl⟩ := Prod.mk.inj (Option.some.inj h)
      have hread := consume_foldlM scanner.start (input.dropWhile skip)
      refine ⟨(consume_split scanner.start _).symm, ⟨_, hread, haccepts⟩, ?_⟩
      rintro c after hrest more ⟨s, hs, -⟩
      rw [List.foldlM_append, hread, Option.bind_eq_bind, Option.bind_some, List.foldlM_cons,
        consume_stops hrest] at hs
      exact absurd hs (by simp)
    · exact absurd h (by simp)
  · rintro ⟨hsplit, ⟨s, hs, haccepts⟩, hlongest⟩
    have hstop : scanner.consume s rest = ([], s, rest) := by
      cases rest with
      | nil => rfl
      | cons c after =>
        cases hc : scanner.step s c with
        | none => simp only [Scanner.consume, hc]
        | some next =>
          -- the state after `c` can be continued to a match
          obtain ⟨more, s', hmore, haccepts'⟩ := scanner.live next
          refine absurd ⟨s', ?_, haccepts'⟩ (hlongest c after rfl more)
          rw [List.foldlM_append, hs, Option.bind_eq_bind, Option.bind_some, List.foldlM_cons, hc]
          exact hmore
    rw [hsplit, consume_append hs, hstop, if_pos haccepts, List.append_nil]

end

/-! ## Formats -/

section
variable {α V : Type}

/-- A conversion stores the value of its item; another character must be there as it is. -/
inductive Directive (α V : Type) where
  | convert (scanner : Scanner α) (value : List α → V)
  | literal (c : α)

variable [DecidableEq α] (skip : α → Bool)

/-- The values that are stored, in order. `sscanf` returns how many there are. -/
def sscanf : List (Directive α V) → List α → List V
  | [], _ => []
  | .convert scanner value :: format, input =>
    match scanner.scan skip input with
    | some (item, rest) => value item :: sscanf format rest
    | none => []
  | .literal _ :: _, [] => []
  | .literal c :: format, x :: rest => if x = c then sscanf format rest else []

/-- Every directive of the format succeeds, and the conversions store these values. -/
def Converts : List (Directive α V) → List α → List V → Prop
  | [], _, values => values = []
  | .convert scanner value :: format, input, values =>
    ∃ item rest values', IsItem scanner skip input item rest ∧ values = value item :: values' ∧
      Converts format rest values'
  | .literal c :: format, input, values => ∃ rest, input = c :: rest ∧ Converts format rest values

def Directive.converts : Directive α V → Bool
  | .convert .. => true
  | .literal _ => false

/-- The last directive is a conversion. -/
def EndsInConversion (format : List (Directive α V)) : Prop :=
  ∀ directive ∈ format.getLast?, directive.converts = true

variable {skip} {format : List (Directive α V)} {input : List α} {values : List V}

/-- A format that ends in a conversion succeeds as a whole exactly if all its conversions do. -/
theorem converts_iff (hlast : EndsInConversion format) :
    Converts skip format input values ↔
      sscanf skip format input = values ∧ values.length = format.countP Directive.converts := by
  induction format generalizing input values with
  | nil =>
    rw [Converts, sscanf, List.countP_nil]
    constructor
    · rintro rfl
      exact ⟨rfl, rfl⟩
    · exact fun h => h.1.symm
  | cons directive format ih =>
    have hrest : EndsInConversion format := by
      intro last hlast'
      cases format with
      | nil => exact absurd hlast' (by simp)
      | cons next format => exact hlast last (by rwa [List.getLast?_cons_cons])
    cases directive with
    | convert scanner value =>
      rw [Converts, sscanf, List.countP_cons_of_pos rfl]
      constructor
      · rintro ⟨item, rest, values', hitem, rfl, hconverts⟩
        obtain ⟨hvalues, hlength⟩ := (ih hrest).mp hconverts
        rw [scan_eq_some.mpr hitem]
        exact ⟨congrArg (value item :: ·) hvalues, congrArg (· + 1) hlength⟩
      · rintro ⟨hvalues, hlength⟩
        cases hscan : scanner.scan skip input with
        | none =>
          rw [hscan] at hvalues
          subst hvalues
          exact absurd hlength (by simp)
        | some r =>
          obtain ⟨item, rest⟩ := r
          rw [hscan] at hvalues
          subst hvalues
          exact ⟨item, rest, _, scan_eq_some.mp hscan, rfl,
            (ih hrest).mpr ⟨rfl, Nat.succ.inj hlength⟩⟩
    | literal c =>
      have hpos : 0 < format.countP Directive.converts := by
        cases hformat : format.getLast? with
        | none =>
          rw [List.getLast?_eq_none_iff] at hformat
          subst hformat
          exact absurd (hlast (.literal c) rfl) (by simp [Directive.converts])
        | some last =>
          exact List.countP_pos_iff.mpr ⟨last, List.mem_of_getLast? hformat, hrest last hformat⟩
      rw [Converts, List.countP_cons_of_neg (by simp [Directive.converts])]
      constructor
      · rintro ⟨rest, rfl, hconverts⟩
        rw [sscanf, if_pos rfl]
        exact (ih hrest).mp hconverts
      · rintro ⟨hvalues, hlength⟩
        cases input with
        | nil =>
          rw [sscanf] at hvalues
          subst hvalues
          exact absurd hlength (by simpa using hpos.ne)
        | cons x rest =>
          rw [sscanf] at hvalues
          split at hvalues
          · next hx => exact ⟨rest, by rw [hx], (ih hrest).mpr ⟨hvalues, hlength⟩⟩
          · subst hvalues
            exact absurd hlength (by simpa using hpos.ne)

end

/-! ## Numbers -/

def isSpace (c : UInt8) : Bool := c = 32 ∨ 9 ≤ c ∧ c ≤ 13

def isSign (c : UInt8) : Bool := c = 43 ∨ c = 45

def isDigit (c : UInt8) : Bool := 48 ≤ c ∧ c ≤ 57

def isHexDigit (c : UInt8) : Bool := isDigit c ∨ 97 ≤ c ∧ c ≤ 102 ∨ 65 ≤ c ∧ c ≤ 70

/-- `c` is the small letter `l` or its capital. -/
def isLetter (l c : UInt8) : Bool := c = l ∨ c + 32 = l

inductive UnsignedState
  | start
  | signed
  | digits
  deriving DecidableEq

/-- `[+-]? digit+` -/
def unsignedStep : UnsignedState → UInt8 → Option UnsignedState
  | .start, c =>
    if isSign c then some .signed else if isDigit c then some .digits else none
  | .signed, c => if isDigit c then some .digits else none
  | .digits, c => if isDigit c then some .digits else none

def unsignedScanner : Scanner UInt8 where
  State := UnsignedState
  start := .start
  step := unsignedStep
  accepts s := s = .digits
  live s := by
    cases s with
    | start => exact ⟨[48], .digits, rfl, rfl⟩
    | signed => exact ⟨[48], .digits, rfl, rfl⟩
    | digits => exact ⟨[], .digits, rfl, rfl⟩

def decimalValue (digits : Bytes) : ℕ := digits.foldl (fun n c => 10 * n + (c - 48).toNat) 0

/-- The value of an item of `%u`, where it fits. -/
def unsignedValue (outOfRange : Bytes → UInt32) (item : Bytes) : UInt32 :=
  let n := decimalValue (item.dropWhile isSign)
  if 2 ^ 32 ≤ n then outOfRange item
  else if item.head? = some 45 then -UInt32.ofNat n
  else UInt32.ofNat n

/-- `left` are the letters of a word that are not read yet. -/
inductive FloatState
  | start
  | signed
  | zero
  | digits
  | point
  | fraction
  | hexStart
  | hexDigits
  | hexPoint
  | hexFraction
  | exponent
  | exponentSign
  | exponentDigits
  | infinity (left : Bytes)
  | nan (left : Bytes)
  | nanChars
  | nanEnd
  deriving DecidableEq

/-- The first character after the sign. -/
def floatFirst (c : UInt8) : Option FloatState :=
  if c = 48 then some .zero
  else if isDigit c then some .digits
  else if c = 46 then some .point
  else if isLetter 105 c then some (.infinity [110, 102, 105, 110, 105, 116, 121])
  else if isLetter 110 c then some (.nan [97, 110])
  else none

def floatDigits (c : UInt8) : Option FloatState :=
  if isDigit c then some .digits
  else if c = 46 then some .fraction
  else if isLetter 101 c then some .exponent
  else none

/-- The texts of `strtod`: decimal and hexadecimal numbers, `inf`, `infinity`, `nan` and
`nan(chars)`, with an optional sign. -/
def floatStep : FloatState → UInt8 → Option FloatState
  | .start, c => if isSign c then some .signed else floatFirst c
  | .signed, c => floatFirst c
  | .zero, c => if isLetter 120 c then some .hexStart else floatDigits c
  | .digits, c => floatDigits c
  | .point, c => if isDigit c then some .fraction else none
  | .fraction, c =>
    if isDigit c then some .fraction else if isLetter 101 c then some .exponent else none
  | .hexStart, c =>
    if isHexDigit c then some .hexDigits else if c = 46 then some .hexPoint else none
  | .hexDigits, c =>
    if isHexDigit c then some .hexDigits
    else if c = 46 then some .hexFraction
    else if isLetter 112 c then some .exponent
    else none
  | .hexPoint, c => if isHexDigit c then some .hexFraction else none
  | .hexFraction, c =>
    if isHexDigit c then some .hexFraction else if isLetter 112 c then some .exponent else none
  | .exponent, c =>
    if isSign c then some .exponentSign else if isDigit c then some .exponentDigits else none
  | .exponentSign, c => if isDigit c then some .exponentDigits else none
  | .exponentDigits, c => if isDigit c then some .exponentDigits else none
  | .infinity [], _ => none
  | .infinity (l :: left), c => if isLetter l c then some (.infinity left) else none
  | .nan [], c => if c = 40 then some .nanChars else none
  | .nan (l :: left), c => if isLetter l c then some (.nan left) else none
  | .nanChars, c =>
    if isDigit c ∨ 97 ≤ c ∧ c ≤ 122 ∨ 65 ≤ c ∧ c ≤ 90 ∨ c = 95 then some .nanChars
    else if c = 41 then some .nanEnd
    else none
  | .nanEnd, _ => none

def floatAccepts : FloatState → Bool
  | .zero | .digits | .fraction | .hexDigits | .hexFraction | .exponentDigits | .nanEnd => true
  | .infinity left => left = [] ∨ left = [105, 110, 105, 116, 121]
  | .nan left => left = []
  | _ => false

/-- A word is read by its own letters. -/
theorem floatStep_word {state : Bytes → FloatState}
    (hstep : ∀ l left, floatStep (state (l :: left)) l = some (state left)) (left : Bytes) :
    left.foldlM floatStep (state left) = some (state []) := by
  induction left with
  | nil => rfl
  | cons l left ih =>
    rw [List.foldlM_cons, hstep]
    exact ih

def floatScanner : Scanner UInt8 where
  State := FloatState
  start := .start
  step := floatStep
  accepts := floatAccepts
  live s := by
    cases s with
    | start | signed => exact ⟨[48], .zero, rfl, rfl⟩
    | point => exact ⟨[48], .fraction, rfl, rfl⟩
    | hexStart => exact ⟨[48], .hexDigits, rfl, rfl⟩
    | hexPoint => exact ⟨[48], .hexFraction, rfl, rfl⟩
    | exponent | exponentSign => exact ⟨[48], .exponentDigits, rfl, rfl⟩
    | nanChars => exact ⟨[41], .nanEnd, rfl, rfl⟩
    | zero | digits | fraction | hexDigits | hexFraction | exponentDigits | nanEnd =>
      exact ⟨[], _, rfl, rfl⟩
    | infinity left =>
      exact ⟨left, .infinity [], floatStep_word (fun l left => by simp [floatStep, isLetter]) left,
        rfl⟩
    | nan left =>
      exact ⟨left, .nan [], floatStep_word (fun l left => by simp [floatStep, isLetter]) left, rfl⟩

/-- `-30.5` before a line end, and `1e`, which an exponent could follow. -/
example : floatScanner.scan isSpace [32, 45, 51, 48, 46, 53, 13] =
    some ([45, 51, 48, 46, 53], [13]) ∧ floatScanner.scan isSpace [49, 101] = none := by decide

end Foundations.Scanf
