import Selection.Record
import Selection.Sample.Catalog

/-! # Sample customers

The customers of the shop: Ada with two orders, Grace without an email address, Linus without an
address, an age or orders, and Margaret, who is inactive and cancelled her order.
-/

namespace Selection.Sample

/-- An amount of an article in an order. -/
structure LineItem where
  orderId : Int64
  sku : String
  qty : Int64

structure Order where
  id : Int64
  customerId : Int64
  total : Binary64
  status : String
  placed : DateTime
  lines : List LineItem

/-- The address of a customer. -/
structure Address where
  city : String
  country : String

structure Customer where
  id : Int64
  name : String
  email : Option String
  age : Option Int64
  active : Bool
  balance : Decimal
  joined : Date
  lastSeen : Option DateTime
  address : Option Address
  orders : List Order

/-! ## Records -/

/-- The value of what may be missing. -/
def orNull {α : Type} (make : α → Value) : Option α → Value
  | some x => make x
  | none => .null

def LineItem.toRecord (l : LineItem) : Record :=
  .mk [("orderId", .int l.orderId), ("sku", .string l.sku), ("qty", .int l.qty)] [] []

def Order.toRecord (o : Order) : Record :=
  .mk
    [("id", .int o.id), ("customerId", .int o.customerId), ("total", .float o.total),
      ("status", .string o.status), ("placed", .timestampNaive o.placed)]
    [] [("lines", o.lines.map LineItem.toRecord)]

def Address.toRecord (a : Address) : Record :=
  .mk [("city", .string a.city), ("country", .string a.country)] [] []

def Customer.toRecord (c : Customer) : Record :=
  .mk
    [("id", .int c.id), ("name", .string c.name), ("email", orNull .string c.email),
      ("age", orNull .int c.age), ("active", .boolean c.active), ("balance", .decimal c.balance),
      ("joined", .date c.joined), ("lastSeen", orNull .timestampNaive c.lastSeen)]
    (c.address.map fun a => ("address", a.toRecord)).toList
    [("orders", c.orders.map Order.toRecord)]

/-! ## Data -/

def day (year : Int) (month day : Nat)
    (exists_day : (Date.ofCivil? ⟨year, month, day⟩).isSome := by decide) : Date :=
  (Date.ofCivil? ⟨year, month, day⟩).get exists_day

def moment (date : Date) (hour minute : Nat)
    (exists_time : (TimeOfDay.ofClock? hour minute 0 0).isSome := by decide) : DateTime :=
  ⟨date, (TimeOfDay.ofClock? hour minute 0 0).get exists_time⟩

/-- Ada has two orders, one of them above 100. -/
def ada : Customer where
  id := 1
  name := "Ada"
  email := some "ada@example.com"
  age := some 36
  active := true
  balance := { digits := 12050, scale := 2 }
  joined := day 2020 1 15
  lastSeen := some (moment (day 2024 3 1) 9 30)
  address := some ⟨"Oslo", "NO"⟩
  orders :=
    [{ id := 10
       customerId := 1
       total := .ofInt 250
       status := "shipped"
       placed := moment (day 2024 2 20) 14 0
       lines := [⟨10, "BOOK-1", 2⟩, ⟨10, "PEN-9", 10⟩] },
     { id := 11
       customerId := 1
       total := .ofInt 40
       status := "open"
       placed := moment (day 2024 2 28) 8 15
       lines := [⟨11, "INK-3", 1⟩] }]

/-- Grace has one small order and no email address. -/
def grace : Customer where
  id := 2
  name := "Grace"
  email := none
  age := some 41
  active := true
  balance := .ofInt 0
  joined := day 2021 6 1
  lastSeen := some (moment (day 2024 2 29) 23 59)
  address := some ⟨"Bergen", "NO"⟩
  orders :=
    [{ id := 20
       customerId := 2
       total := .ofRatio false 31 2
       status := "shipped"
       placed := moment (day 2024 1 5) 10 0
       lines := [⟨20, "PEN-9", 1⟩] }]

/-- Linus has neither address nor orders, and his age is unknown. -/
def linus : Customer where
  id := 3
  name := "Linus"
  email := some "linus@example.org"
  age := none
  active := true
  balance := .ofInt (-5)
  joined := day 2023 11 30
  lastSeen := none
  address := none
  orders := []

/-- Margaret is inactive and cancelled her order. -/
def margaret : Customer where
  id := 4
  name := "Margaret"
  email := some "margaret@example.com"
  age := some 30
  active := false
  balance := { digits := 9999, scale := 2 }
  joined := day 2019 3 10
  lastSeen := some (moment (day 2023 12 24) 12 0)
  address := some ⟨"Oslo", "NO"⟩
  orders :=
    [{ id := 40
       customerId := 4
       total := .ofInt 500
       status := "cancelled"
       placed := moment (day 2023 12 1) 16 45
       lines := [⟨40, "DESK-2", 1⟩] }]

def customers : List Customer :=
  [ada, grace, linus, margaret]

end Selection.Sample
