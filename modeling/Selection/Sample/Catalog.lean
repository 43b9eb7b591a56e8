import Selection.Schema.Basic

/-! # Sample record types

Two sets of record types to try criteria on. The shop has customers with an address and orders,
whose lines belong to them by key. Wide records and parts hold a field of every type, nest in
themselves and each other, and have a linked and an unlinked collection each.
-/

namespace Selection.Sample

inductive RecordType where
  | wide
  | part
  | customer
  | address
  | order
  | lineItem
deriving DecidableEq

def wide : Schema RecordType :=
  { name := "Wide" : Schema RecordType }
    |>.scalar "i" .int
    |>.scalar "u" .intUnsigned
    |>.scalar "f" .float
    |>.scalar "d" .decimal
    |>.scalar "s" .string
    |>.scalar "b" .boolean
    |>.scalar "id" .uuid
    |>.scalar "date" .date
    |>.scalar "ts" .timestamp
    |>.scalar "tsn" .timestampNaive
    |>.scalar "time" .time
    |>.scalar "dur" .duration
    |>.scalar "nil" .null
    |>.nested "sub" .wide
    |>.nested "part" .part
    |>.linked "kids" .wide "parentId" "id"
    |>.collection "tags" .part

def part : Schema RecordType :=
  { name := "Part" : Schema RecordType }
    |>.scalar "name" .string
    |>.scalar "w" .int
    |>.nested "spec" .part
    |>.linked "bits" .part "part_id" "name"
    |>.collection "loose" .part

def customer : Schema RecordType :=
  { name := "Customer" : Schema RecordType }
    |>.scalar "id" .int
    |>.scalar "name" .string
    |>.scalar "email" .string
    |>.scalar "age" .int
    |>.scalar "active" .boolean
    |>.scalar "balance" .decimal
    |>.scalar "joined" .date
    |>.scalar "lastSeen" .timestampNaive
    |>.nested "address" .address
    |>.linked "orders" .order "customerId" "id"

def address : Schema RecordType :=
  { name := "Address" : Schema RecordType }
    |>.scalar "city" .string
    |>.scalar "country" .string

def order : Schema RecordType :=
  { name := "Order" : Schema RecordType }
    |>.scalar "id" .int
    |>.scalar "customerId" .int
    |>.scalar "total" .float
    |>.scalar "status" .string
    |>.scalar "placed" .timestampNaive
    |>.linked "lines" .lineItem "orderId" "id"

def lineItem : Schema RecordType :=
  { name := "LineItem" : Schema RecordType }
    |>.scalar "orderId" .int
    |>.scalar "sku" .string
    |>.scalar "qty" .int

def catalog : Catalog RecordType
  | .wide => wide
  | .part => part
  | .customer => customer
  | .address => address
  | .order => order
  | .lineItem => lineItem

def RecordType.all : List RecordType :=
  [wide, part, customer, address, order, lineItem]

/-- The record type whose schema has a name. -/
def RecordType.ofName? (name : String) : Option RecordType :=
  all.find? fun t => (catalog t).name == name

end Selection.Sample
