/-
# Durations in words

A duration of whole milliseconds: zero in nanoseconds, less than a second in
milliseconds, and otherwise in seconds with as many decimals as are needed.
-/

namespace PreconditionMining
namespace Duration

/-- The three decimals of a number of thousandths, without the zeros at the end. -/
def decimals (thousandths : Nat) : List Char :=
  let digits := [thousandths / 100, thousandths / 10 % 10, thousandths % 10]
  (digits.map Nat.digitChar).reverse.dropWhile (· = '0') |>.reverse

/-- The text of a number of milliseconds. -/
def ofMilliseconds (ms : Nat) : String :=
  if ms = 0 then "0ns"
  else if ms < 1000 then toString ms ++ "ms"
  else
    match decimals (ms % 1000) with
    | [] => toString (ms / 1000) ++ "s"
    | cs => toString (ms / 1000) ++ "." ++ String.ofList cs ++ "s"

end Duration
end PreconditionMining
