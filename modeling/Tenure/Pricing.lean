/-!
# Pricing

A pricing turns the base weight of a resource into the price charged for it.
-/

namespace Tenure

/-- How a price is made from a base weight. -/
inductive Pricing where
  /-- the base price itself -/
  | standard
  /-- twice the base price -/
  | premium
  /-- a multiple of the base price -/
  | multiple (factor : Float)
  /-- the base price and a fixed fee -/
  | surcharge (fee : Float)

/-- The price of a unit with the given base weight. -/
def Pricing.price : Pricing → Float → Float
  | standard, base => base
  | premium, base => base * 2.0
  | multiple factor, base => base * factor
  | surcharge fee, base => base + fee

end Tenure
