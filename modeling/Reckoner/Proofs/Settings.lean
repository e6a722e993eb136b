import Reckoner.CommandLine.Run
import Reckoner.Proofs.Binary64.Overflow
import Reckoner.Proofs.Stages
/-!
# `Reckoner/Proofs/Settings.lean` — settings are read, or refused by name

The settings are read one after another, and reading ends with the first value that is refused. So
there are two results: settings, each of which is the value given to it or the default, and the
fault of the first refused value. Nothing else about the entries counts (`ofEntries_congr`).

> **A bad value is refused by its name, unless it is too large** (`settings_or_first_refused`). A
> count that is no number is named, but an infinite one is not; and neither is an integer beyond
> the range of values, for any of the four. The fault of these has no message, and a run with such
> a value in its environment ends with status 1 and no complaint.
-/

set_option autoImplicit false

namespace Reckoner.Text

/-! ## Quoted names -/

/-- The character is ASCII and stands for itself between single quotes. -/
def isPlain (c : Char) : Bool :=
  decide (0x20 ≤ c.toNat) && decide (c.toNat < 0x7F) && c ≠ '\'' && c ≠ '\\'

theorem isPrintable_of_isPlain {c : Char} (h : isPlain c = true) : isPrintable c = true := by
  have hranges : ∀ r ∈ unprintableRanges, r.2 < 0x20 ∨ 0x7F ≤ r.1 := by decide +kernel
  simp only [isPlain, Bool.and_eq_true, decide_eq_true_eq] at h
  simp only [isPrintable, inRanges, Bool.not_eq_true', List.any_eq_false,
    Bool.and_eq_true, decide_eq_true_eq]
  intro r hr
  have := hranges r hr
  omega

/-- Text of such characters is put between single quotes, and nothing else is done to it. -/
theorem quoted_of_isPlain {text : List Char} (h : text.all isPlain = true) :
    quoted text = '\'' :: text ++ ['\''] := by
  rw [List.all_eq_true] at h
  have hquote : quoteFor text = '\'' := by
    have hnone : '\'' ∉ text := fun hmem => absurd (h _ hmem) (by decide)
    simp [quoteFor, hnone]
  have hescape : ∀ c ∈ text, escape '\'' c = [c] := by
    intro c hc
    have hplain := h c hc
    have hprintable := isPrintable_of_isPlain hplain
    simp only [isPlain, Bool.and_eq_true, decide_eq_true_eq, ne_eq] at hplain
    obtain ⟨⟨⟨hlower, -⟩, hapostrophe⟩, hbackslash⟩ := hplain
    have hcontrol : ∀ d : Char, d.toNat < 0x20 → c ≠ d := by
      rintro d hd rfl
      exact absurd hd (not_lt.mpr hlower)
    simp [escape, hapostrophe, hbackslash, hprintable, hcontrol '\n' (by decide),
      hcontrol '\r' (by decide), hcontrol '\t' (by decide)]
  have hall : text.flatMap (escape '\'') = text := by
    rw [List.flatMap_congr hescape]
    simp
  rw [quoted, hquote]
  simp only [hall]

end Reckoner.Text

namespace Reckoner.Settings

variable {α : Type} {entries entries' : List (List Char × RawValue)}

/-! ## What is given -/

/-- The names of the settings, in the order in which they are read. -/
def names : List String :=
  ["significant_digits", "mantissa_digits", "scientific_upper", "scientific_lower"]

/-- The value that the entries give to a name. Null is none. -/
def given? (entries : List (List Char × RawValue)) (name : String) : Option RawValue :=
  match entries.lookup name.toList with
  | none | some .null => none
  | some raw => some raw

/-- What becomes of a setting: the given value, read, or else the default. -/
def Becomes (read : RawValue → Except Refusal α) (fallback : α) (a : α) : Option RawValue → Prop
  | none => a = fallback
  | some raw => read raw = .ok a

/-- The settings are those that the entries give. -/
structure MadeOf (entries : List (List Char × RawValue)) (settings : Settings) : Prop where
  significantDigits : Becomes readCount default.significantDigits settings.significantDigits
    (given? entries "significant_digits")
  mantissaDigits : Becomes readCount default.mantissaDigits settings.mantissaDigits
    (given? entries "mantissa_digits")
  scientificUpper : Becomes readNumber default.scientificUpper settings.scientificUpper
    (given? entries "scientific_upper")
  scientificLower : Becomes readNumber default.scientificLower settings.scientificLower
    (given? entries "scientific_lower")

/-! ## What is refused -/

/-- A value that is given to a setting and refused. -/
structure Refused where
  name : String
  raw : RawValue
  refusal : Refusal

namespace Refused

/-- The fault that it makes. -/
def fault (refused : Refused) : Fault := refused.refusal.fault refused.name refused.raw

/-- The message that names it. -/
def message (refused : Refused) : String :=
  "Invalid value for " ++ EvalError.quote refused.name.toList ++ ": " ++
    String.ofList refused.raw.literal

end Refused

/-- The value given to a name, if reading refuses it. -/
def refused? (read : RawValue → Except Refusal α) (entries : List (List Char × RawValue))
    (name : String) : Option Refused :=
  match given? entries name with
  | none => none
  | some raw =>
    match read raw with
    | .ok _ => none
    | .error refusal => some ⟨name, raw, refusal⟩

/-- The first refused value, in the order in which the settings are read. -/
def firstRefused? (entries : List (List Char × RawValue)) : Option Refused :=
  (refused? readCount entries "significant_digits").or <|
    (refused? readCount entries "mantissa_digits").or <|
      (refused? readNumber entries "scientific_upper").or <|
        refused? readNumber entries "scientific_lower"

/-- The value is a number that is too large: an integer beyond the range of values, or infinite. -/
def IsTooLarge (raw : RawValue) : Prop :=
  (∃ n : Int, raw = .int n ∧ 2 ^ 1024 - 2 ^ 970 ≤ n.natAbs) ∨
    ∃ negative, readNumber raw = .ok (.infinity negative)

/-! ## Reading one value -/

theorem one_le_of_readCount {raw : RawValue} {n : Nat} (h : readCount raw = .ok n) : 1 ≤ n := by
  obtain ⟨v, -, hcount⟩ := bind_eq_ok_iff.mp h
  cases v with
  | nan => cases hcount
  | infinity negative => cases hcount
  | finite negative m e canonical =>
    obtain rfl := Except.ok.inj hcount
    split
    · exact le_rfl
    · exact le_max_left _ _

theorem isInfinite_ofRat_iff {negative : Bool} {x : Rat} (hx : 0 ≤ x) :
    (Binary64.ofRat negative x).isInfinite = true ↔ Binary64.overflow ≤ x := by
  rw [← not_lt, ← Binary64.nearest_lt_iff hx]
  rcases Binary64.ofRat_cases negative hx with ⟨hlt, _, _, _, heq, -⟩ | ⟨hge, heq⟩
  · rw [heq]
    exact iff_of_false (by simp [Binary64.isInfinite]) (not_not.mpr hlt)
  · rw [heq]
    exact iff_of_true rfl (not_lt.mpr hge)

/-- **The one kind of value that is too large as a number** is an integer beyond the range. -/
theorem readNumber_eq_tooLarge_iff {raw : RawValue} : readNumber raw = .error .tooLarge ↔
    ∃ n : Int, raw = .int n ∧ 2 ^ 1024 - 2 ^ 970 ≤ n.natAbs := by
  cases raw with
  | int n =>
    have hrange : (Binary64.ofRat (n < 0) n.natAbs).isInfinite = true ↔
        2 ^ 1024 - 2 ^ 970 ≤ n.natAbs := by
      rw [isInfinite_ofRat_iff (Nat.cast_nonneg _), Binary64.overflow_eq_natCast, Nat.cast_le]
    simp only [readNumber]
    split
    · next h => exact iff_of_true rfl ⟨n, rfl, hrange.mp h⟩
    · next h =>
      refine iff_of_false (by rintro ⟨⟩) ?_
      rintro ⟨n', heq, hge⟩
      obtain rfl := RawValue.int.inj heq
      exact h (hrange.mpr hge)
  | text t =>
    refine iff_of_false ?_ (by rintro ⟨n, ⟨⟩, -⟩)
    simp only [readNumber]
    split
    all_goals rintro ⟨⟩
  | null => exact iff_of_false (by rintro ⟨⟩) (by rintro ⟨n, ⟨⟩, -⟩)
  | bool b => exact iff_of_false (by rintro ⟨⟩) (by rintro ⟨n, ⟨⟩, -⟩)
  | float v => exact iff_of_false (by rintro ⟨⟩) (by rintro ⟨n, ⟨⟩, -⟩)
  | list items => exact iff_of_false (by rintro ⟨⟩) (by rintro ⟨n, ⟨⟩, -⟩)
  | object entries => exact iff_of_false (by rintro ⟨⟩) (by rintro ⟨n, ⟨⟩, -⟩)

theorem wholeCount_eq_tooLarge_iff {v : Binary64} :
    wholeCount v = .error .tooLarge ↔ ∃ negative, v = .infinity negative := by
  cases v with
  | nan => exact iff_of_false (by rintro ⟨⟩) (by rintro ⟨negative, ⟨⟩⟩)
  | infinity negative => exact iff_of_true rfl ⟨negative, rfl⟩
  | finite negative m e h => exact iff_of_false (by rintro ⟨⟩) (by rintro ⟨negative, ⟨⟩⟩)

/-- **As a count, an infinite number is too large as well.** -/
theorem readCount_eq_tooLarge_iff {raw : RawValue} :
    readCount raw = .error .tooLarge ↔ IsTooLarge raw := by
  rw [readCount, bind_eq_error_iff, readNumber_eq_tooLarge_iff, IsTooLarge]
  refine or_congr_right ?_
  constructor
  · rintro ⟨v, hv, hcount⟩
    obtain ⟨negative, rfl⟩ := wholeCount_eq_tooLarge_iff.mp hcount
    exact ⟨negative, hv⟩
  · rintro ⟨negative, hv⟩
    exact ⟨.infinity negative, hv, rfl⟩

/-- So what is too large is told by the value alone, wherever a value is refused. -/
theorem refusal_eq_tooLarge_iff {raw : RawValue} {refusal : Refusal}
    (h : readNumber raw = .error refusal ∨ readCount raw = .error refusal) :
    refusal = .tooLarge ↔ IsTooLarge raw := by
  rcases h with h | h
  · have hfinite : ¬∃ negative, readNumber raw = .ok (.infinity negative) := by
      rintro ⟨negative, hv⟩
      rw [hv] at h
      cases h
    rw [IsTooLarge, or_iff_left hfinite, ← readNumber_eq_tooLarge_iff, h, Except.error.injEq]
  · rw [← readCount_eq_tooLarge_iff, h, Except.error.injEq]

/-! ## Reading one entry after another -/

/-- Reading ends with what is to be made, or with the fault of a refused value. -/
inductive Reads {β : Type} (Made : β → Prop) : Except Fault β → Option Refused → Prop where
  | made {b : β} (h : Made b) : Reads Made (.ok b) none
  | refused {refused : Refused} (h : refused.refusal = .tooLarge ↔ IsTooLarge refused.raw) :
      Reads Made (.error refused.fault) (some refused)

/-- **The first refused value ends the reading.** -/
theorem Reads.bind {β γ : Type} {Made : β → Prop} {Made' : γ → Prop} {x : Except Fault β}
    {f : β → Except Fault γ} {first second : Option Refused} (h : Reads Made x first)
    (hrest : ∀ b, Made b → Reads Made' (f b) second) : Reads Made' (x >>= f) (first.or second) := by
  cases h with
  | made hb => exact hrest _ hb
  | refused hwhy => exact .refused hwhy

theorem readEntry_eq (read : RawValue → Except Refusal α) (fallback : α) (name : String)
    (entries : List (List Char × RawValue)) :
    readEntry read fallback name entries =
      match given? entries name with
      | none => .ok fallback
      | some raw => (read raw).mapError (Refusal.fault name raw) := by
  unfold readEntry given?
  cases entries.lookup name.toList with
  | none => rfl
  | some raw => cases raw <;> rfl

theorem refused?_of_missing {read : RawValue → Except Refusal α} {name : String}
    (h : given? entries name = none) : refused? read entries name = none := by
  rw [refused?, h]

theorem refused?_of_ok {read : RawValue → Except Refusal α} {name : String} {raw : RawValue} {a : α}
    (hgiven : given? entries name = some raw) (h : read raw = .ok a) :
    refused? read entries name = none := by
  rw [refused?, hgiven]
  simp only [h]

theorem refused?_of_error {read : RawValue → Except Refusal α} {name : String} {raw : RawValue}
    {refusal : Refusal} (hgiven : given? entries name = some raw)
    (h : read raw = .error refusal) :
    refused? read entries name = some ⟨name, raw, refusal⟩ := by
  rw [refused?, hgiven]
  simp only [h]

theorem reads_readEntry {read : RawValue → Except Refusal α} (fallback : α) (name : String)
    (entries : List (List Char × RawValue))
    (hread : ∀ {raw refusal}, read raw = .error refusal → (refusal = .tooLarge ↔ IsTooLarge raw)) :
    Reads (fun a => Becomes read fallback a (given? entries name))
      (readEntry read fallback name entries) (refused? read entries name) := by
  rw [readEntry_eq]
  cases hgiven : given? entries name with
  | none =>
    rw [refused?_of_missing hgiven]
    exact .made rfl
  | some raw =>
    cases h : read raw with
    | ok a =>
      rw [refused?_of_ok hgiven h]
      simp only [h]
      exact .made h
    | error refusal =>
      have hwhy : (⟨name, raw, refusal⟩ : Refused).refusal = .tooLarge ↔ IsTooLarge raw := hread h
      rw [refused?_of_error hgiven h]
      simp only [h]
      exact .refused hwhy

/-- **The entries make settings, or the first refused value ends the reading.** -/
theorem reads_ofEntries (entries : List (List Char × RawValue)) :
    Reads (MadeOf entries) (ofEntries entries) (firstRefused? entries) := by
  have hcount : ∀ {raw refusal}, readCount raw = .error refusal →
      (refusal = .tooLarge ↔ IsTooLarge raw) := fun h => refusal_eq_tooLarge_iff (.inr h)
  have hnumber : ∀ {raw refusal}, readNumber raw = .error refusal →
      (refusal = .tooLarge ↔ IsTooLarge raw) := fun h => refusal_eq_tooLarge_iff (.inl h)
  rw [firstRefused?, ← Option.or_none (o := refused? readNumber entries "scientific_lower")]
  refine (reads_readEntry _ _ entries hcount).bind fun significantDigits h₁ => ?_
  refine (reads_readEntry _ _ entries hcount).bind fun mantissaDigits h₂ => ?_
  refine (reads_readEntry _ _ entries hnumber).bind fun scientificUpper h₃ => ?_
  refine (reads_readEntry _ _ entries hnumber).bind fun scientificLower h₄ => ?_
  exact .made ⟨h₁, h₂, h₃, h₄⟩

/-- **Only what is given to the four names counts.** -/
theorem ofEntries_congr (h : ∀ name ∈ names, given? entries name = given? entries' name) :
    ofEntries entries = ofEntries entries' := by
  have hread : ∀ name ∈ names, ∀ {β : Type} (read : RawValue → Except Refusal β) (fallback : β),
      readEntry read fallback name entries = readEntry read fallback name entries' := by
    intro name hname β read fallback
    rw [readEntry_eq, readEntry_eq, h name hname]
  simp only [names, List.forall_mem_cons] at hread
  obtain ⟨h₁, h₂, h₃, h₄, -⟩ := hread
  rw [ofEntries, ofEntries, h₁, h₂, h₃, h₄]

theorem Becomes.one_le {fallback n : Nat} {given : Option RawValue}
    (h : Becomes readCount fallback n given) (hfallback : 1 ≤ fallback) : 1 ≤ n := by
  cases given with
  | none =>
    obtain rfl : n = fallback := h
    exact hfallback
  | some raw => exact one_le_of_readCount h

theorem MadeOf.one_le_significantDigits {settings : Settings} (h : MadeOf entries settings) :
    1 ≤ settings.significantDigits := h.significantDigits.one_le (by decide)

theorem MadeOf.one_le_mantissaDigits {settings : Settings} (h : MadeOf entries settings) :
    1 ≤ settings.mantissaDigits := h.mantissaDigits.one_le (by decide)

/-- Settings that are read are those that are given. -/
theorem madeOf_of_ofEntries {settings : Settings} (h : ofEntries entries = .ok settings) :
    MadeOf entries settings := by
  have hreads := reads_ofEntries entries
  rw [h] at hreads
  generalize firstRefused? entries = first at hreads
  cases hreads with
  | made hmade => exact hmade

/-! ## What comes of it -/

theorem Refused.message?_fault (refused : Refused) :
    refused.fault.message? = if refused.refusal = .invalid then some refused.message else none := by
  obtain ⟨name, raw, refusal⟩ := refused
  cases refusal <;> rfl

theorem reportSettings_fault (refused : Refused) : CommandLine.reportSettings refused.fault =
    if refused.refusal = .invalid then ⟨2, "", [], some (CommandLine.complaintOf refused.message)⟩
    else .ended 1 := by
  obtain ⟨name, raw, refusal⟩ := refused
  cases refusal <;> rfl

/-- The entries for which the variables of an environment stand. -/
def environmentEntries (environment : List (List Char × List Char)) :
    List (List Char × RawValue) :=
  collect ((collect environment).filterMap fun p => ofVariable? p.1 p.2)

/-- A run whose settings are refused ends before anything is evaluated. -/
theorem run_of_fault {arguments : List (List Char)} {parsed : CommandLine.Arguments}
    {environment : List (List Char × List Char)} {fault : Fault}
    (hparse : CommandLine.parse arguments = .ok parsed)
    (hfault : ofEntries (environmentEntries environment) = .error fault) (input : List Char) :
    CommandLine.run arguments environment input = CommandLine.reportSettings fault := by
  have henvironment : ofEnvironment environment = .error fault := hfault
  rw [CommandLine.run, hparse]
  simp only [henvironment]

/-- **The entries make settings, or the first bad value is refused.** The settings are what the
entries give to the four names, with one digit at least, and nothing else counts. The first value
that is refused is named by the message of the fault, unless it is too large a number: then there is
no message, and a run that finds it in its environment ends without a complaint. -/
theorem settings_or_first_refused (entries : List (List Char × RawValue)) :
    (∀ entries', (∀ name ∈ names, given? entries name = given? entries' name) →
      ofEntries entries = ofEntries entries') ∧
    ((∃ settings, ofEntries entries = .ok settings ∧ firstRefused? entries = none ∧
        MadeOf entries settings ∧ 1 ≤ settings.significantDigits ∧ 1 ≤ settings.mantissaDigits) ∨
      ∃ refused, firstRefused? entries = some refused ∧
        ofEntries entries = .error refused.fault ∧
        (refused.fault.message? =
          if refused.refusal = .invalid then some refused.message else none) ∧
        (refused.refusal = .tooLarge ↔ IsTooLarge refused.raw) ∧
        ∀ arguments parsed environment input, CommandLine.parse arguments = .ok parsed →
          environmentEntries environment = entries →
            CommandLine.run arguments environment input =
              if refused.refusal = .invalid then
                ⟨2, "", [], some (CommandLine.complaintOf refused.message)⟩
              else .ended 1) := by
  refine ⟨fun entries' => ofEntries_congr, ?_⟩
  have hreads := reads_ofEntries entries
  generalize hresult : ofEntries entries = result at hreads ⊢
  generalize firstRefused? entries = first at hreads ⊢
  cases hreads with
  | made hmade =>
    exact .inl ⟨_, rfl, rfl, hmade, hmade.one_le_significantDigits, hmade.one_le_mantissaDigits⟩
  | refused hwhy =>
    refine .inr ⟨_, rfl, rfl, Refused.message?_fault _, hwhy, ?_⟩
    rintro arguments parsed environment input hparse rfl
    rw [run_of_fault hparse hresult, reportSettings_fault]

/-- Of two bad values in an environment, the one that is read first is named. -/
theorem first_refused_of_environment :
    CommandLine.run ["eval".toList, "1".toList]
        [("INFIXCALC_SCIENTIFIC_LOWER".toList, "low".toList),
          ("INFIXCALC_mantissa_digits".toList, "six".toList)] [] =
      ⟨2, "", [], some "infixcalc: error: Invalid value for 'mantissa_digits': 'six'"⟩ := by
  have hparse : CommandLine.parse ["eval".toList, "1".toList] =
      .ok ⟨false, .eval ["1".toList]⟩ := rfl
  have hread : readCount (.text "six".toList) = .error .invalid := by
    have hnumber : Binary64.ofText? "six".toList = none := by decide +kernel
    simp only [readCount, readNumber, hnumber]
    rfl
  have hfirst : firstRefused? (environmentEntries
      [("INFIXCALC_SCIENTIFIC_LOWER".toList, "low".toList),
        ("INFIXCALC_mantissa_digits".toList, "six".toList)]) =
      some ⟨"mantissa_digits", .text "six".toList, .invalid⟩ := by
    rw [firstRefused?, refused?_of_missing rfl, refused?_of_error rfl hread]
    rfl
  have hmessage : CommandLine.complaintOf
      (Refused.message ⟨"mantissa_digits", .text "six".toList, .invalid⟩) =
      "infixcalc: error: Invalid value for 'mantissa_digits': 'six'" := by
    have hname : Text.quoted "mantissa_digits".toList = "'mantissa_digits'".toList :=
      Text.quoted_of_isPlain (by decide)
    have hvalue : Text.quoted "six".toList = "'six'".toList := Text.quoted_of_isPlain (by decide)
    calc CommandLine.complaintOf
          (Refused.message ⟨"mantissa_digits", .text "six".toList, .invalid⟩)
        = CommandLine.complaintOf ("Invalid value for " ++
            String.ofList "'mantissa_digits'".toList ++ ": " ++
              String.ofList "'six'".toList) := by
          rw [← hname, ← hvalue]
          rfl
      _ = "infixcalc: error: Invalid value for 'mantissa_digits': 'six'" := by decide +kernel
  obtain ⟨-, hreads⟩ := settings_or_first_refused (environmentEntries
    [("INFIXCALC_SCIENTIFIC_LOWER".toList, "low".toList),
      ("INFIXCALC_mantissa_digits".toList, "six".toList)])
  rcases hreads with ⟨_, -, hnone, -⟩ | ⟨refused, hsome, -, -, -, hrun⟩
  · exact absurd (hnone.symm.trans hfirst) (Option.some_ne_none _).symm
  · obtain rfl := Option.some.inj (hsome.symm.trans hfirst)
    have hreport := hrun _ _ _ [] hparse rfl
    rw [if_pos rfl, hmessage] at hreport
    exact hreport

/-- **An infinite count is refused without a message**, and the run ends without a complaint. -/
theorem infinite_count_not_named :
    ofEntries [("significant_digits".toList, .text "inf".toList)] = .error .settingTooLarge ∧
      Fault.settingTooLarge.message? = none ∧
      (CommandLine.run ["eval".toList, "1".toList]
        [("INFIXCALC_SIGNIFICANT_DIGITS".toList, "inf".toList)] []).status = 1 ∧
      (CommandLine.run ["eval".toList, "1".toList]
        [("INFIXCALC_SIGNIFICANT_DIGITS".toList, "inf".toList)] []).complaint = none := by
  decide +kernel

end Reckoner.Settings
