import Mathlib.Tactic

/-!
# Self-delimiting texts

A reader takes a value off the front of a text. A rendering is self-delimiting
when the reader recovers the value from it in front of any rest. Such renderings
are injective, no rendering is a proper prefix of another, and the strict decoder
that accepts exactly the renderings is their inverse.
-/

universe u

/-- Take a value off the front of a text and return the rest. -/
abbrev Reader (α : Type u) := List Char → Option (α × List Char)

namespace Reader

variable {α : Type u} {render : α → List Char} {read : Reader α}

/-- The reader recovers every rendered value in front of any rest. -/
def Reads (render : α → List Char) (read : Reader α) : Prop :=
  ∀ a rest, read (render a ++ rest) = some (a, rest)

/-- No rendering is a proper prefix of another. -/
theorem Reads.prefix_free (hreads : Reads render read) {a b : α} {rest : List Char}
    (h : render a ++ rest = render b) : a = b ∧ rest = [] := by
  have ha := hreads a rest
  have hb := hreads b []
  rw [h, ← List.append_nil (render b), hb] at ha
  simpa [eq_comm] using ha

theorem Reads.injective (hreads : Reads render read) : Function.Injective render :=
  fun _ _ h => (hreads.prefix_free (by rw [List.append_nil, h])).1

/-- Take a fixed text off the front. -/
def literal : List Char → Reader Unit
  | [], text => some ((), text)
  | _ :: _, [] => none
  | c :: cs, d :: text => if c = d then literal cs text else none

@[simp] theorem literal_append (cs rest : List Char) :
    literal cs (cs ++ rest) = some ((), rest) := by
  induction cs with
  | nil => rfl
  | cons c cs ih => simpa [literal] using ih

/-- Decode a whole text, accepting exactly the renderings. -/
def strict (render : α → List Char) (read : Reader α) (text : List Char) : Option α :=
  (read text).bind fun (a, _) => if render a = text then some a else none

theorem Reads.strict_render (hreads : Reads render read) (a : α) :
    strict render read (render a) = some a := by
  have h := hreads a []
  rw [List.append_nil] at h
  simp [strict, h]

theorem strict_eq_some {text : List Char} {a : α} (h : strict render read text = some a) :
    render a = text := by
  obtain ⟨⟨b, rest⟩, _, hb⟩ := Option.bind_eq_some_iff.mp h
  dsimp only at hb
  split at hb
  · cases hb
    assumption
  · cases hb

/-- A rendering that is cut short does not decode. -/
theorem Reads.strict_of_prefix (hreads : Reads render read) {text : List Char} {a : α}
    (hpre : text <+: render a) (hne : text ≠ render a) :
    strict render read text = none := by
  obtain ⟨rest, hrest⟩ := hpre
  cases hdecode : strict render read text with
  | none => rfl
  | some b =>
    have hb := strict_eq_some hdecode
    obtain ⟨rfl, _⟩ := hreads.prefix_free (hb.symm ▸ hrest : render b ++ rest = render a)
    exact absurd hb.symm hne

end Reader
