/-!
# Sorting by a partial order

Binary insertion behind the run at the front, stable, for an order that may fail on two items. Under
an order that leaves some items unrelated the result depends on which ones are compared, so that is
part of what is said here.
-/
namespace RuleLowering

/-- Splits behind the longest front in which no item stands before its predecessor; `last` is the
item in front of all. -/
def ascending {ε α : Type} (less : α → α → Except ε Bool) (last : α) :
    List α → Except ε (List α × List α)
  | [] => .ok ([], [])
  | x :: xs => do
    if ← less x last then return ([], x :: xs)
    let (run, rest) ← ascending less x xs
    return (x :: run, rest)

/-- Splits behind the longest front in which each item stands before its predecessor. -/
def descending {ε α : Type} (less : α → α → Except ε Bool) (last : α) :
    List α → Except ε (List α × List α)
  | [] => .ok ([], [])
  | x :: xs => do
    if ← less x last then
      let (run, rest) ← descending less x xs
      return (x :: run, rest)
    else return ([], x :: xs)

/-- The run at the front of some items, in ascending order, and the other items. -/
def firstRun {ε α : Type} (less : α → α → Except ε Bool) : List α → Except ε (List α × List α)
  | x :: y :: rest => do
    if ← less y x then
      let (run, rest) ← descending less y rest
      return ((x :: y :: run).reverse, rest)
    else
      let (run, rest) ← ascending less y rest
      return (x :: y :: run, rest)
  | items => .ok (items, [])

/-- The place between two bounds where an item belongs, by halving. The fuel bounds the number of
comparisons. -/
def placeBetween {ε α : Type} (less : α → α → Except ε Bool) (front : List α) (x : α) :
    (fuel low high : Nat) → Except ε Nat
  | 0, low, _ => .ok low
  | fuel + 1, low, high =>
    let middle := low + (high - low) / 2
    match front[middle]? with
    | some y =>
      if low < high then do
        if ← less x y then placeBetween less front x fuel low middle
        else placeBetween less front x fuel (middle + 1) high
      else .ok low
    | none => .ok low

/-- Puts an item behind all those of an ascending list that it does not stand before. -/
def insertSorted {ε α : Type} (less : α → α → Except ε Bool) (front : List α) (x : α) :
    Except ε (List α) := do
  let i ← placeBetween less front x (front.length + 1) 0 front.length
  return front.take i ++ x :: front.drop i

/-- The items in ascending order; equal ones keep their order. -/
def sorted {ε α : Type} (less : α → α → Except ε Bool) (items : List α) : Except ε (List α) := do
  let (run, rest) ← firstRun less items
  rest.foldlM (insertSorted less) run

end RuleLowering
