import WebBindings.Number.Double
/-!
# Integers as words

An integer of any size is kept in words of 64 bits. It becomes a number by way of its 64 leading
bits, so that the conversion need not hold the exact value.
-/

namespace WebBindings.Words

def bitLength (n : Nat) : Nat := if n = 0 then 0 else n.log2 + 1

/-- How many words follow the leading one. -/
def lowerWords (n : Nat) : Nat := (bitLength n - 1) / 64

/-- The number of binary digits in the leading word. -/
def leadingDigits (n : Nat) : Nat := bitLength n - 64 * lowerWords n

/-- A word; the lowest has the index zero. -/
def word (n index : Nat) : Nat := n / 2 ^ (64 * index) % 2 ^ 64

/-- Whether the conversion sees that something follows the 64 leading bits. Of each lower word it
looks at as many low bits as the leading word has digits. -/
def hasRemainder (n : Nat) : Bool :=
  (List.range (lowerWords n)).any fun index => word n index % 2 ^ leadingDigits n ≠ 0

/-- The 64 leading bits of a longer integer, the last of them set if there is a remainder, in place.
Shorter integers are left as they are. -/
def lead (n : Nat) : Nat :=
  let below := bitLength n - 64
  if below = 0 then n
  else (n / 2 ^ below ||| if hasRemainder n then 1 else 0) * 2 ^ below

end WebBindings.Words

namespace WebBindings.Double

/-- The number that an integer converts to: the one nearest to its leading bits. -/
def ofBigInt (n : Int) : Double := round (n < 0) (Words.lead n.natAbs * one) 1

end WebBindings.Double
