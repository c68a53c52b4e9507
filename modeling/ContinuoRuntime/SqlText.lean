/-
  Names and values in the SQL of the adapters: the quote sign is doubled inside.
-/
import ContinuoRuntime.Python.Replace
import ContinuoRuntime.Lib.Quoting

namespace ContinuoRuntime

open Quoting

/-- `quote_identifier`. -/
def quoteIdentifier (name : Str) : Str := [ch '"'] ++ replace name [ch '"'] [ch '"', ch '"'] ++ [ch '"']

/-- `sql_literal`. -/
def sqlLiteral (value : Str) : Str := [ch '\''] ++ replace value [ch '\''] [ch '\'', ch '\''] ++ [ch '\'']

theorem replace_doubled (s : Str) (q : CodePoint) : replace s [q] [q, q] = double q s := replace_singleton s [q, q] q

/-- **A literal** is read back, whatever stands behind it but a quote sign. -/
theorem readDoubled_sqlLiteral (value : Str) {rest : Str} (h : rest.head? ≠ some (ch '\'')) :
    ∃ text, sqlLiteral value ++ rest = ch '\'' :: text ∧ readDoubled (ch '\'') text = some (value, rest) := by
  refine ⟨double (ch '\'') value ++ ch '\'' :: rest, ?_, readDoubled_double h value⟩
  simp [sqlLiteral, replace_doubled]

theorem double_append (q : CodePoint) (s t : Str) : double q (s ++ t) = double q s ++ double q t :=
  List.flatMap_append

/-- Without a quote sign there is nothing to double. -/
theorem double_of_notMem {q : CodePoint} {s : Str} (h : q ∉ s) : double q s = s := by
  induction s with
  | nil => rfl
  | cons c s ih =>
    have hc : c ≠ q := fun heq => h (heq ▸ List.mem_cons_self)
    rw [double, List.flatMap_cons, if_neg hc, ← double, ih fun hm => h (List.mem_cons_of_mem _ hm)]
    rfl

end ContinuoRuntime
