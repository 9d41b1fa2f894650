/-!
# Lines

A text of lines, each with a feed behind it, is cut at the feeds into its lines again, if none of
them holds one (`splitOn_framed`). It does not matter whether the lines are made of characters or of
bytes.
-/

namespace Telemetry.Text

variable {β : Type}

/-- Lines as they stand in a text, each with a feed behind it. -/
def framed (feed : β) (lines : List (List β)) : List β := lines.flatMap (· ++ [feed])

theorem framed_append (feed : β) (lines more : List (List β)) :
    framed feed (lines ++ more) = framed feed lines ++ framed feed more :=
  List.flatMap_append

/-- Cutting a text at the feeds gives back its lines, and nothing behind the last of them. -/
theorem splitOn_framed [BEq β] [LawfulBEq β] {feed : β} {lines : List (List β)}
    (h : ∀ line ∈ lines, feed ∉ line) : (framed feed lines).splitOn feed = lines ++ [[]] := by
  induction lines with
  | nil => rfl
  | cons line rest ih =>
    obtain ⟨hline, hrest⟩ := List.forall_mem_cons.mp h
    rw [framed, List.flatMap_cons, List.append_assoc, List.singleton_append,
      List.splitOn_append_cons_self_of_not_mem hline, ← framed, ih hrest, List.cons_append]

end Telemetry.Text
