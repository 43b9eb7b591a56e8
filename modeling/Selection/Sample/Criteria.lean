import Selection.Compile.Environment
import Selection.Criterion.Basic
import Selection.Sample.Customers

/-! # Sample criteria

Criteria on customers of the shop and on wide records, and what they are compiled in.
-/

namespace Selection.Sample

/-- No context, and patterns left to the query engine. -/
def office : Environment where
  systemTime := .ofDate (day 2024 4 1)

/-- No context, and patterns matched in memory as they are written. -/
def archive : Environment where
  settings := { like := .caseSensitive }
  systemTime := .ofDate (day 2024 4 1)

/-- A context with a name that looks like a sigil, and with a limit. -/
def desk : Context :=
  .map [("who", .value (.string "\x7bNOW\x7d")), ("limit", .value (.int 100))]

def morning : Environment where
  context := some desk
  systemTime := moment (day 2024 4 1) 8 0

/-- The same context as in the morning, under a clock that stands still. -/
def evening : Environment where
  settings := { clock := .fixed (moment (day 2024 4 1) 18 30) }
  context := some desk
  systemTime := moment (day 2024 4 1) 8 0

/-- Customers of the name in the context, with an order above the limit in the context. -/
def wanted : Criterion :=
  .group .and
    [.test .equal "name" (.constant (.string "\x7bwho\x7d")),
      .any "orders"
        (.test .greaterThan "total"
          (.group .add [.constant (.string "\x7blimit\x7d"), .constant (.int 1)]))]

/-- Customers outside Oslo with no order that is not shipped. -/
def settled : Criterion :=
  .group .and
    [.group .nor [.any "orders" (.test .notEqual "status" (.constant (.string "shipped")))],
      .not (.test .equal "address.city" (.constant (.string "Oslo")))]

/-- Customers with an order of a book. -/
def bookBuyers : Criterion :=
  .any "orders" (.any "lines" (.test .startsWith "sku" (.constant (.string "BOOK"))))

/-- Customers named like Ada, or with an order of a book. -/
def readers : Criterion :=
  .group .or [.test .like "name" (.constant (.string "[A-B]d%")), bookBuyers]

/-- Customers of a name, by a pattern with a set that is not closed. -/
def unclosed : Criterion :=
  .test .like "name" (.constant (.string "[A-"))

/-- Customers of an age, by a field that customers do not have. -/
def misspelled : Criterion :=
  .test .equal "agee" (.constant (.int 36))

/-- Customers with an order of more than a hundred. -/
def largeOrders : Criterion :=
  .any "orders" (.test .greaterThan "total" (.constant (.int 100)))

/-- Wide records with a kid that has a kid of number one. -/
def grandparents : Criterion :=
  .any "kids" (.any "kids" (.test .equal "i" (.constant (.int 1))))

end Selection.Sample
