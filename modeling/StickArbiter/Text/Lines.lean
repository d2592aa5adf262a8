/-!
# Lines of bytes

A line ends at a line feed or at the end of the text; after the last line feed there is no further
line unless something follows it.
-/

namespace StickArbiter.Text

def lineFeed : UInt8 := 10

def lines : List UInt8 → List (List UInt8)
  | [] => []
  | b :: bs =>
    if b = lineFeed then [] :: lines bs
    else match lines bs with
      | [] => [[b]]
      | l :: ls => (b :: l) :: ls

theorem lines_line (l rest : List UInt8) (h : lineFeed ∉ l) :
    lines (l ++ lineFeed :: rest) = l :: lines rest := by
  induction l with
  | nil => simp [lines]
  | cons b l ih =>
    have hb : b ≠ lineFeed := fun e => h (e ▸ List.mem_cons_self)
    have hl : lineFeed ∉ l := fun m => h (List.mem_cons_of_mem _ m)
    simp [lines, hb, ih hl]

end StickArbiter.Text
