import LibraryRegistry.Proofs.Text.Prefix
import LibraryRegistry.Text.Blank

/-!
# Texts with blanks at their ends

White space around a text is dropped, whatever the text is.
-/

namespace LibraryRegistry.Text

/-- White space only. -/
def IsBlanks (cs : List Char) : Prop := ∀ c ∈ cs, isBlank c = true

theorem IsBlanks.dropWhile_append {blanks : List Char} (h : IsBlanks blanks) (cs : List Char) :
    (blanks ++ cs).dropWhile isBlank = cs.dropWhile isBlank :=
  List.dropWhile_append_of_pos h

theorem IsBlanks.reverse {blanks : List Char} (h : IsBlanks blanks) : IsBlanks blanks.reverse :=
  fun c hc => h c (List.mem_reverse.1 hc)

theorem trim_append {blanks : List Char} (h : IsBlanks blanks) (cs : List Char) :
    trim (cs ++ blanks) = trim cs := by
  unfold trim
  rw [List.dropWhile_append]
  split
  · next hempty =>
    rw [List.isEmpty_iff.1 hempty]
    have hdrop : blanks.dropWhile isBlank = [] := by
      have := h.dropWhile_append []
      rwa [List.append_nil] at this
    rw [hdrop]
  · rw [List.reverse_append, h.reverse.dropWhile_append]

/-- **Blanks around a text are dropped.** -/
theorem trim_padded {front back : List Char} (hfront : IsBlanks front) (hback : IsBlanks back)
    (cs : List Char) : trim (front ++ cs ++ back) = trim cs := by
  rw [trim_append hback]
  unfold trim
  rw [hfront.dropWhile_append]

end LibraryRegistry.Text
