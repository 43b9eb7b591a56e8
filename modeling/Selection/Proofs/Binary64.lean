import Selection.Number.Shortest
import Selection.Proofs.Characters

/-! # The characters of floats

A finite float is written with digits, a sign, a point and the letter of an exponent, in a query and
in JSON.
-/

namespace Selection.Binary64

variable {x : Binary64} {s : String}

/-- The characters of a numeral besides its digits. -/
def marks : List Char :=
  ['+', '-', '.', 'e']

/-! ## Digits and their point -/

theorem Shortest.among_ofSteps (tie : TieBreak) (steps : Nat) :
    Text.Among marks (Shortest.ofSteps tie steps).digits := by
  intro c hc
  exact .inl (Numeral.isDigit_of_mem_digits (Numeral.mem_of_mem_dropTrailingZeros hc))

theorem among_zeros (k : Nat) : Text.Among marks (List.replicate k '0') := by
  intro c hc
  rw [List.eq_of_mem_replicate hc]
  exact .inl rfl

theorem Decimals.among_positional {d : Decimals} {whole : List Char}
    (hdigits : Text.Among marks d.digits) (hwhole : Text.Among marks whole) :
    Text.Among marks (d.positional whole) := by
  have htake (k : Nat) : Text.Among marks (d.digits.take k) :=
    fun c hc => hdigits c (List.mem_of_mem_take hc)
  have hdrop (k : Nat) : Text.Among marks (d.digits.drop k) :=
    fun c hc => hdigits c (List.mem_of_mem_drop hc)
  unfold positional
  dsimp only
  split
  · exact .append (.cons (.inl rfl) (.cons (.inr (by decide)) (among_zeros _))) hdigits
  split
  · exact (hdigits.append (among_zeros _)).append hwhole
  · exact (htake _).append (.cons (.inr (by decide)) (hdrop _))

theorem Decimals.among_exponential {d : Decimals} (hdigits : Text.Among marks d.digits) :
    Text.Among marks d.exponential := by
  have hsign (exponent : Int) :
      (if exponent < 0 then '-' else '+') ∈ marks := by
    split <;> decide
  unfold exponential
  refine .append ?_ (.cons (.inr (by decide)) (.cons (.inr (hsign _)) (Numeral.among_digits _ _)))
  split
  next d first rest hcons =>
    rw [hcons] at hdigits
    exact .cons (hdigits d List.mem_cons_self)
      (.cons (.inr (by decide)) fun c hc => hdigits c (List.mem_cons_of_mem _ hc))
  next => exact hdigits

theorem among_withSign {negative : Bool} {cs : List Char} (h : Text.Among marks cs) :
    Text.Among marks (withSign negative cs).toList := by
  rw [withSign, String.toList_ofList]
  split
  · exact .cons (.inr (by decide)) h
  · exact h

/-! ## Texts -/

/-- A finite float in a query has digits, a minus sign and a point. -/
theorem among_text (h : x.isFinite = true) : Text.Among marks x.text.toList := by
  cases x with
  | finite negative steps _ =>
      apply among_withSign
      split
      · decide
      · exact Decimals.among_positional (Shortest.among_ofSteps _ _) (Text.among_nil _)
  | _ => contradiction

/-- A float in JSON has digits, signs, a point and the letter of an exponent. -/
theorem among_jsonText (h : x.jsonText? = some s) : Text.Among marks s.toList := by
  cases x with
  | finite negative steps _ =>
      obtain rfl := Option.some.inj h
      apply among_withSign
      split
      · decide
      dsimp only
      split
      · exact Decimals.among_positional (Shortest.among_ofSteps _ _) (by decide)
      · exact Decimals.among_exponential (Shortest.among_ofSteps _ _)
  | _ => contradiction

end Selection.Binary64
