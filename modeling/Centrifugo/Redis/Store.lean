import Centrifugo.Data.Map
import Centrifugo.Json.Utf8
import Mathlib.Algebra.Group.Nat.Defs
import Mathlib.Data.List.DropRight
import Mathlib.Logic.Function.Basic

/-!
# A Redis server

As much of a Redis server as scripts over lists, hashes and sorted sets need. A key holds a
value of one type, possibly with a deadline, and is gone when its value is empty or its
deadline is reached. Published messages are kept in their order.

A `Script` is one atomic step. An error ends it and keeps what it did before. `Frames` is the
rule for what a script leaves alone, `Keeps` the one for the types of keys.
-/

namespace Redis

open Json (Bytes)

/-! ## Numbers as texts -/

def decimal (n : Nat) : Bytes := Json.encodeUtf8 (Nat.toDigits 10 n)

/-- A number in the one way it is written. -/
def counter? (bytes : Bytes) : Option Nat :=
  (Json.decodeUtf8 bytes).bind fun text =>
    let n := Nat.ofDigitChars 10 text 0
    if decimal n = bytes then some n else none

@[simp] theorem counter?_decimal (n : Nat) : counter? (decimal n) = some n := by
  have same : Nat.ofDigitChars 10 (Nat.toDigits 10 n) 0 = n := Nat.ofDigitChars_ten_toDigits
  simp [counter?, decimal, same]

theorem eq_decimal_of_counter? {bytes : Bytes} {n : Nat} (h : counter? bytes = some n) :
    bytes = decimal n := by
  obtain ⟨text, -, found⟩ := Option.bind_eq_some_iff.mp h
  simp only at found
  split at found
  next same =>
    cases found
    exact same.symm
  next => cases found

theorem decimal_injective : Function.Injective decimal := by
  intro n m same
  have read := congrArg counter? same
  simpa using read

/-! ## Numbers of Lua

A number of Lua 5.1 is a double, and `..` writes it as `%.14g` does. So a whole number of
fourteen digits is written in full and a longer one is not. -/

/-- How many units a number is nearest to, and of two such counts the even one. -/
def roundHalfEven (n unit : Nat) : Nat :=
  let quotient := n / unit
  let rest := n % unit
  if 2 * rest < unit ∨ 2 * rest = unit ∧ quotient % 2 = 0 then quotient else quotient + 1

/-- An integer reply as a number of Lua, of which 53 bits are significant. -/
def luaNumber (n : Nat) : Nat :=
  let unit := 2 ^ (n.log2 - 52)
  roundHalfEven n unit * unit

/-- A number of at least fourteen digits, with an exponent. -/
def scientific (number : Nat) : Json.Text :=
  let exponent := (Nat.toDigits 10 number).length - 1
  let mantissa := roundHalfEven number (10 ^ (exponent - 13))
  -- Rounding up may give one digit more.
  let (mantissa, exponent) :=
    if mantissa = 10 ^ 14 then (10 ^ 13, exponent + 1) else (mantissa, exponent)
  let digits := Nat.toDigits 10 mantissa
  let fraction := (digits.drop 1).rdropWhile (· = '0')
  digits.take 1 ++ (if fraction = [] then [] else '.' :: fraction) ++ ['e', '+'] ++
    Nat.toDigits 10 exponent

/-- A number as `..` writes it. -/
def luaText (number : Nat) : Bytes :=
  if number < 10 ^ 14 then decimal number else Json.encodeUtf8 (scientific number)

@[simp] theorem roundHalfEven_one (n : Nat) : roundHalfEven n 1 = n := by
  simp [roundHalfEven, Nat.mod_one]

theorem luaNumber_of_lt {n : Nat} (small : n < 2 ^ 53) : luaNumber n = n := by
  have bits : n.log2 - 52 = 0 := by
    by_cases zero : n = 0
    · subst zero
      rfl
    · have bound := (Nat.log2_lt zero).mpr small
      omega
  simp [luaNumber, bits]

/-- An offset of at most fourteen digits is written in decimal. -/
theorem luaText_luaNumber {n : Nat} (small : n < 10 ^ 14) : luaText (luaNumber n) = decimal n := by
  rw [luaNumber_of_lt (by omega), luaText, if_pos small]

example : luaText (luaNumber (10 ^ 14)) = [49, 101, 43, 49, 52] := by decide +kernel

/-! ## The store -/

inductive Value
  | list (items : List Bytes)
  | hash (fields : Map String Bytes)
  | zset (members : Map String Nat)
  deriving DecidableEq

inductive Kind
  | list
  | hash
  | zset
  deriving DecidableEq

def Value.kind : Value → Kind
  | list _ => .list
  | hash _ => .hash
  | zset _ => .zset

def Value.isEmpty : Value → Bool
  | list items => items.isEmpty
  | hash fields => fields.entries.isEmpty
  | zset members => members.entries.isEmpty

theorem Value.hash_isEmpty_erase {fields : Map String Bytes} (names : List String)
    (empty : (Value.hash fields).isEmpty) :
    (Value.hash (names.foldl (fun (left : Map String Bytes) name => left.erase name)
      fields)).isEmpty := by
  have none : fields = ∅ := AList.ext (List.isEmpty_iff.mp empty)
  rw [none, Map.foldl_erase_empty]
  rfl

theorem Value.zset_isEmpty_erase {members : Map String Nat} (names : List String)
    (empty : (Value.zset members).isEmpty) :
    (Value.zset (names.foldl (fun (left : Map String Nat) name => left.erase name)
      members)).isEmpty := by
  have none : members = ∅ := AList.ext (List.isEmpty_iff.mp empty)
  rw [none, Map.foldl_erase_empty]
  rfl

structure Entry where
  value : Value
  /-- In milliseconds. -/
  deadline : Option Nat := none
  deriving DecidableEq

structure Store where
  /-- The time in milliseconds. -/
  now : Nat := 0
  keys : String → Option Entry := fun _ => none
  published : List (String × Bytes) := []

namespace Store

/-- Time goes on, and takes the keys whose deadline it reaches. -/
def tick (store : Store) (elapsed : Nat) : Store :=
  { store with
    now := store.now + elapsed
    keys := fun key => (store.keys key).filter fun entry =>
      entry.deadline.all fun deadline => store.now + elapsed < deadline }

def set (store : Store) (key : String) (entry : Option Entry) : Store :=
  { store with keys := Function.update store.keys key entry }

/-- Replace a value and keep its deadline. An empty value is none. -/
def put (store : Store) (key : String) (value : Value) : Store :=
  store.set key <|
    if value.isEmpty then none
    else some ⟨value, (store.keys key).bind Entry.deadline⟩

/-- The keys that a schema names hold values of the type that it names. -/
def Typed (schema : String → Option Kind) (store : Store) : Prop :=
  ∀ key entry kind, schema key = some kind → store.keys key = some entry →
    entry.value.kind = kind

/-- The value of a key as a list, empty when there is none. `none` for another type. -/
def listAt (key : String) (store : Store) : Option (List Bytes) :=
  match store.keys key with
  | none => some []
  | some ⟨.list items, _⟩ => some items
  | some _ => none

def hashAt (key : String) (store : Store) : Option (Map String Bytes) :=
  match store.keys key with
  | none => some ∅
  | some ⟨.hash fields, _⟩ => some fields
  | some _ => none

def zsetAt (key : String) (store : Store) : Option (Map String Nat) :=
  match store.keys key with
  | none => some ∅
  | some ⟨.zset members, _⟩ => some members
  | some _ => none

@[simp] theorem set_now (store : Store) (key : String) (entry : Option Entry) :
    (store.set key entry).now = store.now := rfl

@[simp] theorem set_published (store : Store) (key : String) (entry : Option Entry) :
    (store.set key entry).published = store.published := rfl

@[simp] theorem set_self (store : Store) (key : String) (entry : Option Entry) :
    (store.set key entry).keys key = entry := Function.update_self ..

@[simp] theorem set_other (store : Store) {key other : String} (h : other ≠ key)
    (entry : Option Entry) : (store.set key entry).keys other = store.keys other :=
  Function.update_of_ne h ..

/-! ## Values with a deadline -/

/-- The key holds a value until a deadline. An empty value is no key at all. -/
def Until (key : String) (value : Value) (deadline : Nat) (store : Store) : Prop :=
  store.keys key = if value.isEmpty then none else some ⟨value, some deadline⟩

namespace Until

variable {key : String} {value value' : Value} {deadline : Nat} {store store' : Store}

theorem congr (same : store'.keys key = store.keys key) (held : Until key value deadline store) :
    Until key value deadline store' :=
  same.trans held

theorem of_none (empty : value.isEmpty) (absent : store.keys key = none) :
    Until key value deadline store := by
  rw [Until, if_pos empty, absent]

theorem of_some (held : store.keys key = some ⟨value, some deadline⟩)
    (full : value.isEmpty = false) : Until key value deadline store := by
  rw [Until, full, held]
  rfl

theorem hashAt {fields : Map String Bytes} (held : Until key (.hash fields) deadline store) :
    store.hashAt key = some fields := by
  rw [Store.hashAt, held]
  cases empty : (Value.hash fields).isEmpty with
  | false => rfl
  | true =>
      have none : fields = ∅ := AList.ext (List.isEmpty_iff.mp empty)
      rw [none]
      rfl

theorem zsetAt {members : Map String Nat} (held : Until key (.zset members) deadline store) :
    store.zsetAt key = some members := by
  rw [Store.zsetAt, held]
  cases empty : (Value.zset members).isEmpty with
  | false => rfl
  | true =>
      have none : members = ∅ := AList.ext (List.isEmpty_iff.mp empty)
      rw [none]
      rfl

/-- A value that takes the place of another one lasts as long. -/
theorem put (held : Until key value deadline store)
    (shrinks : value.isEmpty → value'.isEmpty) :
    Until key value' deadline (store.put key value') := by
  unfold Until at held ⊢
  rw [Store.put, set_self, held]
  by_cases empty : value'.isEmpty
  · rw [if_pos empty, if_pos empty]
  · have full : ¬ value.isEmpty := fun gone => empty (shrinks gone)
    rw [if_neg empty, if_neg empty, if_neg full]
    rfl

theorem tick_of_lt {elapsed : Nat} (held : Until key value deadline store)
    (ahead : store.now + elapsed < deadline) : Until key value deadline (store.tick elapsed) := by
  unfold Until at held ⊢
  simp only [tick, held]
  split
  · rfl
  · simp [ahead]

theorem tick_of_le {elapsed : Nat} (held : Until key value deadline store)
    (reached : deadline ≤ store.now + elapsed) : (store.tick elapsed).keys key = none := by
  unfold Until at held
  simp only [tick, held]
  split
  · rfl
  · simp [reached]

end Until

theorem tick_of_none {key : String} {store : Store} {elapsed : Nat}
    (absent : store.keys key = none) : (store.tick elapsed).keys key = none := by
  simp only [tick, absent, Option.filter_none]

end Store

/-! ## Scripts -/

inductive Failure
  | wrongType
  | notInteger
  | overflow
  | notText
  deriving DecidableEq

def Script (α : Type) : Type := Store → Except Failure α × Store

namespace Script

variable {α β : Type}

instance : Monad Script where
  pure a := fun store => (.ok a, store)
  bind x next := fun store =>
    match x store with
    | (.ok a, store) => next a store
    | (.error failure, store) => (.error failure, store)

@[simp] theorem pure_run (a : α) (store : Store) : (pure a : Script α) store = (.ok a, store) := rfl

theorem bind_run (x : Script α) (next : α → Script β) (store : Store) :
    (x >>= next) store =
      match x store with
      | (.ok a, store) => next a store
      | (.error failure, store) => (.error failure, store) := rfl

/-- The rest of a script, after a command that went well. -/
theorem bind_ok {x : Script α} {next : α → Script β} {store store' : Store} {a : α}
    (h : x store = (.ok a, store')) : (x >>= next) store = next a store' := by
  rw [bind_run, h]

/-- A script that went well did so in its first command and in the rest. -/
theorem bind_eq_ok {x : Script α} {next : α → Script β} {store store' : Store} {b : β} :
    (x >>= next) store = (.ok b, store') ↔
      ∃ a middle, x store = (.ok a, middle) ∧ next a middle = (.ok b, store') := by
  rw [bind_run]
  match ran : x store with
  | (.ok a, middle) => simp
  | (.error failure, middle) => simp

/-! ## Commands -/

def time : Script Nat := fun store => (.ok (store.now / 1000), store)

def present (key : String) : Script Bool := fun store => (.ok (store.keys key).isSome, store)

def del (key : String) : Script Unit := fun store => (.ok (), store.set key none)

/-- A deadline in so many seconds. Zero deletes the key. -/
def expire (key : String) (seconds : Nat) : Script Unit := fun store =>
  match store.keys key with
  | none => (.ok (), store)
  | some entry =>
      (.ok (), store.set key <|
        if seconds = 0 then none
        else some { entry with deadline := some (store.now + 1000 * seconds) })

def publish (topic : String) (payload : Bytes) : Script Unit := fun store =>
  (.ok (), { store with published := store.published ++ [(topic, payload)] })

def fail (failure : Failure) : Script α := fun store => (.error failure, store)

/-- Look at the store. -/
def view (failure : Failure) (look : Store → Option α) : Script α := fun store =>
  match look store with
  | some a => (.ok a, store)
  | none => (.error failure, store)

def list (key : String) : Script (List Bytes) := view .wrongType (Store.listAt key)

def hash (key : String) : Script (Map String Bytes) := view .wrongType (Store.hashAt key)

def zset (key : String) : Script (Map String Nat) := view .wrongType (Store.zsetAt key)

def put (key : String) (value : Value) : Script Unit := fun store => (.ok (), store.put key value)

/-- The items between two places, where a negative place counts from the end. -/
def span (start stop : Int) (items : List Bytes) : List Bytes :=
  let start := if start < 0 then max 0 (start + items.length) else start
  let stop := if stop < 0 then stop + items.length else stop
  if stop < start then [] else (items.drop start.toNat).take (stop - start + 1).toNat

def lpush (key : String) (item : Bytes) : Script Unit := do
  let items ← list key
  put key (.list (item :: items))

def ltrim (key : String) (start stop : Int) : Script Unit := do
  let items ← list key
  put key (.list (span start stop items))

def lrange (key : String) (start stop : Int) : Script (List Bytes) := do
  let items ← list key
  return span start stop items

def hget (key field : String) : Script (Option Bytes) := do
  let fields ← hash key
  return fields.lookup field

def hset (key field : String) (value : Bytes) : Script Unit := do
  let fields ← hash key
  put key (.hash (fields.insert field value))

def hdel (key field : String) : Script Unit := do
  let fields ← hash key
  put key (.hash (fields.erase field))

def hgetall (key : String) : Script (List (String × Bytes)) := do
  let fields ← hash key
  return fields.toPairs

/-- The counter in a field, zero when there is none. -/
def counterOf : Option Bytes → Script Nat
  | none => pure 0
  | some value =>
      match counter? value with
      | some n => pure n
      | none => fail .notInteger

/-- Add to a counter, which is a signed number of 64 bits. -/
def hincrby (key field : String) (increment : Nat) : Script Nat := do
  let fields ← hash key
  let n ← counterOf (fields.lookup field)
  if n + increment < 2 ^ 63 then do
    put key (.hash (fields.insert field (decimal (n + increment))))
    return n + increment
  else fail .overflow

def zadd (key member : String) (score : Nat) : Script Unit := do
  let members ← zset key
  put key (.zset (members.insert member score))

def zrem (key member : String) : Script Unit := do
  let members ← zset key
  put key (.zset (members.erase member))

/-- The members with a score up to a bound. -/
def upTo (bound : Nat) (members : Map String Nat) : List String :=
  (members.toPairs.filter fun entry => entry.2 ≤ bound).map Prod.fst

def zrangebyscore (key : String) (bound : Nat) : Script (List String) := do
  let members ← zset key
  return upTo bound members

def zremrangebyscore (key : String) (bound : Nat) : Script Unit := do
  let members ← zset key
  put key (.zset ((upTo bound members).foldl (fun left member => left.erase member) members))

def onlyIf (condition : Prop) [Decidable condition] (command : Script Unit) : Script Unit :=
  if condition then command else pure ()

/-- A command for each item. -/
def forAll {ι : Type} (command : ι → Script Unit) : List ι → Script Unit
  | [] => pure ()
  | item :: items => do
      command item
      forAll command items

/-! ## Lists -/

theorem span_all (items : List Bytes) : span 0 (-1) items = items := by
  cases items with
  | nil => rfl
  | cons item items =>
      have whole : ((-1 : Int) + (item :: items).length - 0 + 1).toNat =
          (item :: items).length := by
        simp only [List.length_cons]
        omega
      have nonneg : ¬ (-1 : Int) + (item :: items).length < 0 := by
        simp only [List.length_cons]
        omega
      simp only [span, show ¬ ((0 : Int) < 0) by decide, show ((-1 : Int) < 0) by decide, if_true,
        if_false, if_neg nonneg, whole, List.take_length, Int.toNat_zero, List.drop_zero]

theorem span_front (items : List Bytes) (stop : Nat) :
    span 0 (stop : Int) items = items.take (stop + 1) := by
  have bound : ((stop : Int) - 0 + 1).toNat = stop + 1 := by omega
  have nonneg : ¬ (stop : Int) < 0 := by omega
  simp only [span, show ¬ ((0 : Int) < 0) by decide, if_false, if_neg nonneg, bound,
    Int.toNat_zero, List.drop_zero]

/-! ## What commands do -/

theorem view_eq_ok {failure : Failure} {look : Store → Option α} {store store' : Store} {a : α} :
    view failure look store = (.ok a, store') ↔ look store = some a ∧ store' = store := by
  unfold view
  cases look store with
  | none => simp
  | some b => simp [eq_comm]

/-- The number in a counter, zero when there is none. -/
def count : Option Bytes → Option Nat
  | none => some 0
  | some value => counter? value

theorem counterOf_eq_ok {value : Option Bytes} {store store' : Store} {n : Nat} :
    counterOf value store = (.ok n, store') ↔ count value = some n ∧ store' = store := by
  cases value with
  | none => simp [counterOf, count, eq_comm]
  | some value => cases found : counter? value <;> simp [counterOf, count, found, fail, eq_comm]

theorem hget_eq_ok {key field : String} {store store' : Store} {value : Option Bytes} :
    hget key field store = (.ok value, store') ↔
      ∃ fields, store.hashAt key = some fields ∧ value = fields.lookup field ∧ store' = store := by
  simp only [hget, hash, bind_eq_ok, view_eq_ok, pure_run]
  constructor
  · rintro ⟨fields, middle, ⟨found, rfl⟩, same⟩
    cases same
    exact ⟨fields, found, rfl, rfl⟩
  · rintro ⟨fields, found, rfl, rfl⟩
    exact ⟨fields, store', ⟨found, rfl⟩, rfl⟩

theorem hset_eq_ok {key field : String} {value : Bytes} {store store' : Store} :
    hset key field value store = (.ok (), store') ↔
      ∃ fields, store.hashAt key = some fields ∧
        store' = store.put key (.hash (fields.insert field value)) := by
  simp only [hset, hash, bind_eq_ok, view_eq_ok, put]
  constructor
  · rintro ⟨fields, middle, ⟨found, rfl⟩, same⟩
    cases same
    exact ⟨fields, found, rfl⟩
  · rintro ⟨fields, found, rfl⟩
    exact ⟨fields, store, ⟨found, rfl⟩, rfl⟩

theorem hincrby_eq_ok {key field : String} {increment n : Nat} {store store' : Store} :
    hincrby key field increment store = (.ok n, store') ↔
      ∃ fields m, store.hashAt key = some fields ∧ count (fields.lookup field) = some m ∧
        n = m + increment ∧ n < 2 ^ 63 ∧
        store' = store.put key (.hash (fields.insert field (decimal n))) := by
  simp only [hincrby, hash, bind_eq_ok, view_eq_ok, counterOf_eq_ok]
  constructor
  · rintro ⟨fields, middle, ⟨found, rfl⟩, m, middle', ⟨counted, rfl⟩, ran⟩
    split at ran
    next fits =>
      cases ran
      exact ⟨fields, m, found, counted, rfl, fits, rfl⟩
    next => cases ran
  · rintro ⟨fields, m, found, counted, rfl, fits, rfl⟩
    refine ⟨fields, store, ⟨found, rfl⟩, m, store, ⟨counted, rfl⟩, ?_⟩
    rw [if_pos fits]
    rfl

theorem lpush_eq_ok {key : String} {item : Bytes} {store store' : Store} :
    lpush key item store = (.ok (), store') ↔
      ∃ items, store.listAt key = some items ∧ store' = store.put key (.list (item :: items)) := by
  simp only [lpush, list, bind_eq_ok, view_eq_ok, put]
  constructor
  · rintro ⟨items, middle, ⟨found, rfl⟩, same⟩
    cases same
    exact ⟨items, found, rfl⟩
  · rintro ⟨items, found, rfl⟩
    exact ⟨items, store, ⟨found, rfl⟩, rfl⟩

theorem ltrim_eq_ok {key : String} {start stop : Int} {store store' : Store} :
    ltrim key start stop store = (.ok (), store') ↔
      ∃ items, store.listAt key = some items ∧
        store' = store.put key (.list (span start stop items)) := by
  simp only [ltrim, list, bind_eq_ok, view_eq_ok, put]
  constructor
  · rintro ⟨items, middle, ⟨found, rfl⟩, same⟩
    cases same
    exact ⟨items, found, rfl⟩
  · rintro ⟨items, found, rfl⟩
    exact ⟨items, store, ⟨found, rfl⟩, rfl⟩

theorem lrange_eq_ok {key : String} {start stop : Int} {store store' : Store}
    {items : List Bytes} :
    lrange key start stop store = (.ok items, store') ↔
      ∃ all, store.listAt key = some all ∧ items = span start stop all ∧ store' = store := by
  simp only [lrange, list, bind_eq_ok, view_eq_ok, pure_run]
  constructor
  · rintro ⟨all, middle, ⟨found, rfl⟩, same⟩
    cases same
    exact ⟨all, found, rfl, rfl⟩
  · rintro ⟨all, found, rfl, rfl⟩
    exact ⟨all, store', ⟨found, rfl⟩, rfl⟩

/-! ## Values after a command -/

theorem listAt_eq {key : String} {store : Store} {items : List Bytes} {deadline : Option Nat}
    (found : store.keys key = some ⟨.list items, deadline⟩) : store.listAt key = some items := by
  rw [Store.listAt, found]

theorem hashAt_eq {key : String} {store : Store} {fields : Map String Bytes}
    {deadline : Option Nat} (found : store.keys key = some ⟨.hash fields, deadline⟩) :
    store.hashAt key = some fields := by
  rw [Store.hashAt, found]

/-- A field of a hash is in a key that is there. -/
theorem keys_of_lookup {key field : String} {store : Store} {fields : Map String Bytes}
    {value : Bytes} (found : store.hashAt key = some fields)
    (held : fields.lookup field = some value) :
    store.keys key = some ⟨.hash fields, (store.keys key).bind Entry.deadline⟩ := by
  unfold Store.hashAt at found
  split at found
  · cases found
    cases held
  next stored =>
    cases found
    rw [stored]
    rfl
  · cases found

theorem listAt_congr {key : String} {store store' : Store}
    (same : store'.keys key = store.keys key) : store'.listAt key = store.listAt key := by
  rw [Store.listAt, Store.listAt, same]

theorem put_hash (store : Store) (key : String) (fields : Map String Bytes) (field : String)
    (value : Bytes) : (store.put key (.hash (fields.insert field value))).keys key =
      some ⟨.hash (fields.insert field value), (store.keys key).bind Entry.deadline⟩ := by
  have full : (Value.hash (fields.insert field value)).isEmpty = false := by
    simp [Value.isEmpty, AList.entries_insert]
  simp only [Store.put, full, Store.set_self, Bool.false_eq_true, if_false]

theorem put_zset (store : Store) (key : String) (members : Map String Nat) (member : String)
    (score : Nat) : (store.put key (.zset (members.insert member score))).keys key =
      some ⟨.zset (members.insert member score), (store.keys key).bind Entry.deadline⟩ := by
  have full : (Value.zset (members.insert member score)).isEmpty = false := by
    simp [Value.isEmpty, AList.entries_insert]
  simp only [Store.put, full, Store.set_self, Bool.false_eq_true, if_false]

theorem put_list {items : List Bytes} (full : items ≠ []) (store : Store) (key : String) :
    (store.put key (.list items)).keys key =
      some ⟨.list items, (store.keys key).bind Entry.deadline⟩ := by
  have full' : (Value.list items).isEmpty = false := by simpa [Value.isEmpty] using full
  simp only [Store.put, full', Store.set_self, Bool.false_eq_true, if_false]

theorem put_other (store : Store) {key other : String} (h : other ≠ key) (value : Value) :
    (store.put key value).keys other = store.keys other := Store.set_other _ h _

@[simp] theorem put_now (store : Store) (key : String) (value : Value) :
    (store.put key value).now = store.now := rfl

@[simp] theorem put_published (store : Store) (key : String) (value : Value) :
    (store.put key value).published = store.published := rfl

/-- A deadline ahead is set on a key that is there, and on nothing else. -/
theorem expire_run {key : String} {store : Store} {value : Value} {deadline : Option Nat}
    {seconds : Nat} (ahead : 0 < seconds) (found : store.keys key = some ⟨value, deadline⟩) :
    expire key seconds store =
      (.ok (), store.set key (some ⟨value, some (store.now + 1000 * seconds)⟩)) := by
  simp only [expire, found, if_neg (Nat.ne_of_gt ahead)]

/-! ## Running commands -/

section Run

variable {key field member : String} {store : Store} {fields : Map String Bytes}
variable {members : Map String Nat}

theorem hash_run (found : store.hashAt key = some fields) : hash key store = (.ok fields, store) :=
  view_eq_ok.mpr ⟨found, rfl⟩

theorem zset_run (found : store.zsetAt key = some members) :
    zset key store = (.ok members, store) :=
  view_eq_ok.mpr ⟨found, rfl⟩

theorem hset_run (found : store.hashAt key = some fields) (value : Bytes) :
    hset key field value store = (.ok (), store.put key (.hash (fields.insert field value))) :=
  bind_ok (hash_run found)

theorem hdel_run (found : store.hashAt key = some fields) :
    hdel key field store = (.ok (), store.put key (.hash (fields.erase field))) :=
  bind_ok (hash_run found)

theorem hgetall_run (found : store.hashAt key = some fields) :
    hgetall key store = (.ok fields.toPairs, store) :=
  bind_ok (hash_run found)

theorem zadd_run (found : store.zsetAt key = some members) (score : Nat) :
    zadd key member score store = (.ok (), store.put key (.zset (members.insert member score))) :=
  bind_ok (zset_run found)

theorem zrem_run (found : store.zsetAt key = some members) :
    zrem key member store = (.ok (), store.put key (.zset (members.erase member))) :=
  bind_ok (zset_run found)

theorem zrangebyscore_run (found : store.zsetAt key = some members) (bound : Nat) :
    zrangebyscore key bound store = (.ok (upTo bound members), store) :=
  bind_ok (zset_run found)

theorem zremrangebyscore_run (found : store.zsetAt key = some members) (bound : Nat) :
    zremrangebyscore key bound store = (.ok (), store.put key (.zset
      ((upTo bound members).foldl (fun (left : Map String Nat) member => left.erase member)
        members))) :=
  bind_ok (zset_run found)

theorem expire_zero {entry : Entry} (found : store.keys key = some entry) :
    expire key 0 store = (.ok (), store.set key none) := by
  simp only [expire, found, if_true]

end Run

theorem mem_upTo {bound : Nat} {members : Map String Nat} {member : String} :
    member ∈ upTo bound members ↔ ∃ score, members.lookup member = some score ∧ score ≤ bound := by
  simp only [upTo, List.mem_map, List.mem_filter, decide_eq_true_iff, Map.mem_toPairs]
  constructor
  · rintro ⟨⟨member, score⟩, ⟨found, small⟩, rfl⟩
    exact ⟨score, found, small⟩
  · rintro ⟨score, found, small⟩
    exact ⟨(member, score), ⟨found, small⟩, rfl⟩

/-! ## What scripts leave alone -/

/-- The script changes keys of one kind only, and takes no time. -/
structure Frames (only : String → Prop) (x : Script α) : Prop where
  keys : ∀ store key, ¬ only key → (x store).2.keys key = store.keys key
  now : ∀ store, (x store).2.now = store.now

namespace Frames

variable {only : String → Prop} {key : String}

/-- A script that does not change the store. -/
theorem of_same {x : Script α} (same : ∀ store, (x store).2 = store) : Frames only x := by
  constructor
  · intro store key _
    rw [same]
  · intro store
    rw [same]

/-- A script that changes one key. -/
theorem of_set {x : Script α} (mine : only key)
    (set : ∀ store, (x store).2 = store ∨ ∃ entry, (x store).2 = store.set key entry) :
    Frames only x := by
  constructor
  · intro store other apart
    have differs : other ≠ key := by
      rintro rfl
      exact apart mine
    obtain same | ⟨entry, same⟩ := set store
    · rw [same]
    · rw [same, Store.set_other _ differs]
  · intro store
    obtain same | ⟨entry, same⟩ := set store <;> rw [same]
    rfl

theorem pure (a : α) : Frames only (pure a : Script α) := of_same fun _ => rfl

theorem bind {x : Script α} {next : α → Script β} (first : Frames only x)
    (rest : ∀ a, Frames only (next a)) : Frames only (x >>= next) := by
  constructor
  · intro store key other
    have kept := first.keys store key other
    rw [bind_run]
    match ran : x store with
    | (.ok a, store') =>
        rw [ran] at kept
        exact ((rest a).keys store' key other).trans kept
    | (.error _, store') =>
        rw [ran] at kept
        exact kept
  · intro store
    have kept := first.now store
    rw [bind_run]
    match ran : x store with
    | (.ok a, store') =>
        rw [ran] at kept
        exact ((rest a).now store').trans kept
    | (.error _, store') =>
        rw [ran] at kept
        exact kept

theorem ite {condition : Prop} [Decidable condition] {x y : Script α} (yes : Frames only x)
    (no : Frames only y) : Frames only (if condition then x else y) := by
  split
  · exact yes
  · exact no

theorem onlyIf {condition : Prop} [Decidable condition] {command : Script Unit}
    (yes : Frames only command) : Frames only (onlyIf condition command) := ite yes (pure ())

theorem time : Frames only time := of_same fun _ => rfl

theorem present (key : String) : Frames only (present key) := of_same fun _ => rfl

theorem fail (failure : Failure) : Frames only (fail failure : Script α) := of_same fun _ => rfl

theorem publish (topic : String) (payload : Bytes) : Frames only (publish topic payload) :=
  ⟨fun _ _ _ => rfl, fun _ => rfl⟩

theorem view (failure : Failure) (look : Store → Option α) : Frames only (view failure look) := by
  refine of_same fun store => ?_
  unfold Script.view
  split <;> rfl

theorem list (key : String) : Frames only (list key) := view _ _

theorem hash (key : String) : Frames only (hash key) := view _ _

theorem zset (key : String) : Frames only (zset key) := view _ _

theorem put (mine : only key) (value : Value) : Frames only (put key value) :=
  of_set mine fun _ => .inr ⟨_, rfl⟩

theorem del (mine : only key) : Frames only (del key) := of_set mine fun _ => .inr ⟨_, rfl⟩

theorem expire (mine : only key) (seconds : Nat) : Frames only (expire key seconds) := by
  refine of_set mine fun store => ?_
  unfold Script.expire
  split
  · exact .inl rfl
  · exact .inr ⟨_, rfl⟩

theorem lpush (mine : only key) (item : Bytes) : Frames only (lpush key item) :=
  (list key).bind fun _ => put mine _

theorem ltrim (mine : only key) (start stop : Int) : Frames only (ltrim key start stop) :=
  (list key).bind fun _ => put mine _

theorem lrange (key : String) (start stop : Int) : Frames only (lrange key start stop) :=
  (list key).bind fun _ => pure _

theorem hget (key field : String) : Frames only (hget key field) :=
  (hash key).bind fun _ => pure _

theorem hset (mine : only key) (field : String) (value : Bytes) :
    Frames only (hset key field value) :=
  (hash key).bind fun _ => put mine _

theorem hdel (mine : only key) (field : String) : Frames only (hdel key field) :=
  (hash key).bind fun _ => put mine _

theorem hgetall (key : String) : Frames only (hgetall key) := (hash key).bind fun _ => pure _

theorem counterOf (value : Option Bytes) : Frames only (counterOf value) := by
  unfold Script.counterOf
  split
  · exact pure _
  · split
    · exact pure _
    · exact fail _

theorem hincrby (mine : only key) (field : String) (increment : Nat) :
    Frames only (hincrby key field increment) :=
  (hash key).bind fun _ => (counterOf _).bind fun _ =>
    ite ((put mine _).bind fun _ => pure _) (fail _)

theorem zadd (mine : only key) (member : String) (score : Nat) :
    Frames only (zadd key member score) :=
  (zset key).bind fun _ => put mine _

theorem zrem (mine : only key) (member : String) : Frames only (zrem key member) :=
  (zset key).bind fun _ => put mine _

theorem zrangebyscore (key : String) (bound : Nat) : Frames only (zrangebyscore key bound) :=
  (zset key).bind fun _ => pure _

theorem zremrangebyscore (mine : only key) (bound : Nat) :
    Frames only (zremrangebyscore key bound) :=
  (zset key).bind fun _ => put mine _

theorem forAll {ι : Type} {command : ι → Script Unit} (each : ∀ item, Frames only (command item))
    (items : List ι) : Frames only (forAll command items) := by
  induction items with
  | nil => exact pure ()
  | cons item items ih => exact (each item).bind fun _ => ih

end Frames

/-- Fields deleted one after the other. -/
theorem forAll_hdel_run {key : String} {deadline : Nat} (members : List String) {store : Store}
    {fields : Map String Bytes} (held : store.Until key (.hash fields) deadline) :
    ∃ store', forAll (hdel key) members store = (.ok (), store') ∧
      store'.Until key (.hash (members.foldl
        (fun (left : Map String Bytes) member => left.erase member) fields)) deadline := by
  induction members generalizing store fields with
  | nil => exact ⟨store, rfl, held⟩
  | cons member members ih =>
      obtain ⟨store', ran, left⟩ := ih (held.put (Value.hash_isEmpty_erase [member]))
      exact ⟨store', (bind_ok (hdel_run held.hashAt)).trans ran, left⟩

/-! ## The types of keys -/

/-- The script keeps a schema, and no command of it meets a value of another type. -/
structure Keeps (schema : String → Option Kind) (x : Script α) : Prop where
  typed : ∀ store, store.Typed schema → (x store).2.Typed schema
  noWrongType : ∀ store, store.Typed schema → (x store).1 ≠ .error .wrongType

namespace Keeps

variable {schema : String → Option Kind} {key : String}

/-- A script that does not change the store and does not fail. -/
theorem of_same {x : Script α} (same : ∀ store, ∃ a, x store = (.ok a, store)) :
    Keeps schema x := by
  constructor
  · intro store typed
    obtain ⟨a, ran⟩ := same store
    rw [ran]
    exact typed
  · intro store _ wrong
    obtain ⟨a, ran⟩ := same store
    rw [ran] at wrong
    cases wrong

/-- A value of the type of its key takes the place of the one before. -/
theorem set {store : Store} (typed : store.Typed schema) {entry : Option Entry}
    (fits : ∀ kind e, schema key = some kind → entry = some e → e.value.kind = kind) :
    (store.set key entry).Typed schema := by
  intro other e kind named found
  by_cases same : other = key
  · subst same
    rw [Store.set_self] at found
    exact fits kind e named found
  · rw [Store.set_other _ same] at found
    exact typed other e kind named found

theorem pure (a : α) : Keeps schema (pure a : Script α) := of_same fun _ => ⟨a, rfl⟩

theorem bind {x : Script α} {next : α → Script β} (first : Keeps schema x)
    (rest : ∀ a, Keeps schema (next a)) : Keeps schema (x >>= next) := by
  constructor
  · intro store typed
    have kept := first.typed store typed
    rw [bind_run]
    match ran : x store with
    | (.ok a, store') =>
        rw [ran] at kept
        exact (rest a).typed store' kept
    | (.error _, store') =>
        rw [ran] at kept
        exact kept
  · intro store typed
    have kept := first.typed store typed
    have fine := first.noWrongType store typed
    rw [bind_run]
    match ran : x store with
    | (.ok a, store') =>
        rw [ran] at kept
        exact (rest a).noWrongType store' kept
    | (.error failure, store') =>
        rw [ran] at fine
        intro wrong
        cases wrong
        exact fine rfl

theorem ite {condition : Prop} [Decidable condition] {x y : Script α} (yes : Keeps schema x)
    (no : Keeps schema y) : Keeps schema (if condition then x else y) := by
  split
  · exact yes
  · exact no

theorem onlyIf {condition : Prop} [Decidable condition] {command : Script Unit}
    (yes : Keeps schema command) : Keeps schema (onlyIf condition command) := ite yes (pure ())

theorem time : Keeps schema time := of_same fun _ => ⟨_, rfl⟩

theorem present (key : String) : Keeps schema (present key) := of_same fun _ => ⟨_, rfl⟩

theorem fail {failure : Failure} (other : failure ≠ .wrongType) :
    Keeps schema (fail failure : Script α) := by
  constructor
  · intro store typed
    exact typed
  · intro store _ wrong
    cases wrong
    exact other rfl

theorem publish (topic : String) (payload : Bytes) : Keeps schema (publish topic payload) :=
  ⟨fun _ typed => typed, fun _ _ wrong => by cases wrong⟩

theorem view {failure : Failure} {look : Store → Option α}
    (found : ∀ store : Store, store.Typed schema → ∃ a, look store = some a) :
    Keeps schema (view failure look) := by
  have ran : ∀ store, store.Typed schema →
      ∃ a, Script.view failure look store = (.ok a, store) := by
    intro store typed
    obtain ⟨a, found⟩ := found store typed
    exact ⟨a, by rw [Script.view, found]⟩
  constructor
  · intro store typed
    obtain ⟨a, ran⟩ := ran store typed
    rw [ran]
    exact typed
  · intro store typed wrong
    obtain ⟨a, ran⟩ := ran store typed
    rw [ran] at wrong
    cases wrong

theorem list (named : schema key = some .list) : Keeps schema (list key) := by
  refine view fun store typed => ?_
  unfold Store.listAt
  split
  · exact ⟨_, rfl⟩
  · exact ⟨_, rfl⟩
  next entry other found =>
    have kind := typed key entry .list named found
    obtain ⟨value, deadline⟩ := entry
    cases value with
    | list items => exact absurd rfl (other items deadline)
    | hash fields => cases kind
    | zset members => cases kind

theorem hash (named : schema key = some .hash) : Keeps schema (hash key) := by
  refine view fun store typed => ?_
  unfold Store.hashAt
  split
  · exact ⟨_, rfl⟩
  · exact ⟨_, rfl⟩
  next entry other found =>
    have kind := typed key entry .hash named found
    obtain ⟨value, deadline⟩ := entry
    cases value with
    | list items => cases kind
    | hash fields => exact absurd rfl (other fields deadline)
    | zset members => cases kind

theorem zset (named : schema key = some .zset) : Keeps schema (zset key) := by
  refine view fun store typed => ?_
  unfold Store.zsetAt
  split
  · exact ⟨_, rfl⟩
  · exact ⟨_, rfl⟩
  next entry other found =>
    have kind := typed key entry .zset named found
    obtain ⟨value, deadline⟩ := entry
    cases value with
    | list items => cases kind
    | hash fields => cases kind
    | zset members => exact absurd rfl (other members deadline)

theorem put {value : Value} (named : schema key = some value.kind) :
    Keeps schema (put key value) := by
  constructor
  · intro store typed
    refine set typed ?_
    intro kind entry named' stored
    rw [named] at named'
    cases named'
    split at stored
    · cases stored
    · cases stored
      rfl
  · intro store _ wrong
    cases wrong

theorem del (key : String) : Keeps schema (del key) := by
  constructor
  · intro store typed
    refine set typed ?_
    intro kind entry _ stored
    cases stored
  · intro store _ wrong
    cases wrong

theorem expire (key : String) (seconds : Nat) : Keeps schema (expire key seconds) := by
  constructor
  · intro store typed
    unfold Script.expire
    split
    · exact typed
    next entry found =>
      refine set typed ?_
      intro kind e named stored
      split at stored
      · cases stored
      · cases stored
        exact typed key entry kind named found
  · intro store typed
    unfold Script.expire
    split <;> simp

theorem lpush (named : schema key = some .list) (item : Bytes) : Keeps schema (lpush key item) :=
  (list named).bind fun _ => put named

theorem ltrim (named : schema key = some .list) (start stop : Int) :
    Keeps schema (ltrim key start stop) :=
  (list named).bind fun _ => put named

theorem lrange (named : schema key = some .list) (start stop : Int) :
    Keeps schema (lrange key start stop) :=
  (list named).bind fun _ => pure _

theorem hget (named : schema key = some .hash) (field : String) : Keeps schema (hget key field) :=
  (hash named).bind fun _ => pure _

theorem hset (named : schema key = some .hash) (field : String) (value : Bytes) :
    Keeps schema (hset key field value) :=
  (hash named).bind fun _ => put named

theorem hdel (named : schema key = some .hash) (field : String) : Keeps schema (hdel key field) :=
  (hash named).bind fun _ => put named

theorem hgetall (named : schema key = some .hash) : Keeps schema (hgetall key) :=
  (hash named).bind fun _ => pure _

theorem counterOf (value : Option Bytes) : Keeps schema (counterOf value) := by
  unfold Script.counterOf
  split
  · exact pure _
  · split
    · exact pure _
    · exact fail (by decide)

theorem hincrby (named : schema key = some .hash) (field : String) (increment : Nat) :
    Keeps schema (hincrby key field increment) :=
  (hash named).bind fun _ => (counterOf _).bind fun _ =>
    ite ((put named).bind fun _ => pure _) (fail (by decide))

theorem zadd (named : schema key = some .zset) (member : String) (score : Nat) :
    Keeps schema (zadd key member score) :=
  (zset named).bind fun _ => put named

theorem zrem (named : schema key = some .zset) (member : String) :
    Keeps schema (zrem key member) :=
  (zset named).bind fun _ => put named

theorem zrangebyscore (named : schema key = some .zset) (bound : Nat) :
    Keeps schema (zrangebyscore key bound) :=
  (zset named).bind fun _ => pure _

theorem zremrangebyscore (named : schema key = some .zset) (bound : Nat) :
    Keeps schema (zremrangebyscore key bound) :=
  (zset named).bind fun _ => put named

theorem forAll {ι : Type} {command : ι → Script Unit} (each : ∀ item, Keeps schema (command item))
    (items : List ι) : Keeps schema (forAll command items) := by
  induction items with
  | nil => exact pure ()
  | cons item items ih => exact (each item).bind fun _ => ih

theorem tick {store : Store} (typed : store.Typed schema) (elapsed : Nat) :
    (store.tick elapsed).Typed schema := by
  intro key entry kind named found
  obtain ⟨stored, -⟩ := Option.filter_eq_some_iff.mp found
  exact typed key entry kind named stored

end Keeps

end Script

end Redis
