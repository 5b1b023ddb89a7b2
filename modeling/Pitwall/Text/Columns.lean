/-!
# Columns — texts set in a field of a given width

Widths count characters. A text that is wider than its field is not cut.
-/

namespace Pitwall.Text

/-- A text at the left of its field. -/
def flushLeft (width : Nat) (s : String) : String :=
  s ++ String.ofList (List.replicate (width - s.length) ' ')

/-- A text at the right of its field. -/
def flushRight (width : Nat) (s : String) : String :=
  String.ofList (List.replicate (width - s.length) ' ') ++ s

/-- A field is as wide as the width or the text, whichever is more. -/
theorem length_flushLeft (width : Nat) (s : String) :
    (flushLeft width s).length = max width s.length := by
  simp only [flushLeft, String.length_append, String.length_ofList, List.length_replicate]
  omega

/-- A field is as wide as the width or the text, whichever is more. -/
theorem length_flushRight (width : Nat) (s : String) :
    (flushRight width s).length = max width s.length := by
  simp only [flushRight, String.length_append, String.length_ofList, List.length_replicate]
  omega

end Pitwall.Text
