/-!
# Control sequences

A terminal takes an escape character and an opening bracket for the start of a control sequence,
which goes on with parameters and ends in a letter. What is printed for a reader holds no such
sequences. Whatever is not a whole sequence is text and stays.

The main statement is that a text without escape characters is printed as it is.
-/

namespace Chip8.Text

def escape : Char := '\x1b'

/-- Whether a character can stand before the letter that ends a control sequence. -/
def isParameter (c : Char) : Bool := c == ';' || c == '?' || c.isDigit

/-- What is left behind a control sequence whose start is already gone. -/
def behindSequence? (cs : List Char) : Option (List Char) :=
  match cs.dropWhile isParameter with
  | [] => none
  | c :: rest => if c.isAlpha then some rest else none

theorem length_behindSequence? {cs rest : List Char} (h : behindSequence? cs = some rest) :
    rest.length < cs.length := by
  have bound := (List.dropWhile_suffix isParameter (l := cs)).length_le
  unfold behindSequence? at h
  split at h
  · exact absurd h (by simp)
  · rename_i c tail e
    rw [e] at bound
    split at h
    · obtain rfl := Option.some.inj h
      exact bound
    · exact absurd h (by simp)

/-- Characters without control sequences, behind those that were kept before, the last first. -/
def keepText (kept : List Char) : List Char → List Char
  | [] => kept.reverse
  | c :: '[' :: cs =>
    if c = escape then
      match h : behindSequence? cs with
      | some rest =>
        have : rest.length < cs.length := length_behindSequence? h
        keepText kept rest
      | none => keepText (c :: kept) ('[' :: cs)
    else keepText (c :: kept) ('[' :: cs)
  | c :: cs => keepText (c :: kept) cs
termination_by cs => cs.length

def stripControls (s : String) : String := String.ofList (keepText [] s.toList)

theorem keepText_eq_append {cs : List Char} (h : escape ∉ cs) (kept : List Char) :
    keepText kept cs = kept.reverse ++ cs := by
  induction cs generalizing kept with
  | nil => simp [keepText]
  | cons c cs ih =>
    simp only [List.mem_cons, not_or] at h
    obtain ⟨hc, hcs⟩ := h
    have rest := ih hcs (c :: kept)
    rw [List.reverse_cons, List.append_assoc, List.singleton_append] at rest
    unfold keepText
    split
    · contradiction
    · rename_i d tail e
      obtain ⟨rfl, rfl⟩ := List.cons.inj e
      rw [if_neg (Ne.symm hc), rest]
    · rename_i d tail _ e
      obtain ⟨rfl, rfl⟩ := List.cons.inj e
      rw [rest]

theorem stripControls_eq_self {s : String} (h : escape ∉ s.toList) : stripControls s = s := by
  rw [stripControls, keepText_eq_append h, List.reverse_nil, List.nil_append, String.ofList_toList]

end Chip8.Text
