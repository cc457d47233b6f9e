import Mathlib.Data.List.Basic

/-!
# Items that are executed while they are read

A source takes items from the front of an input until the input ends or is malformed. A batch
executes every item before it reads the next one, so an input that turns out malformed has
its first items executed already. `run_eq` says what a batch does in terms of the items
alone, and `Batch.Ends.untouched_iff` when an input without an answer leaves nothing behind.
-/

/-- What stands at the front of an input. -/
inductive Front (κ α : Type*)
  | done
  | malformed
  | item (item : κ) (rest : α)

/-- Every item takes something off its input, so that an input has an end. -/
structure Source (α κ : Type*) where
  next : α → Front κ α
  size : α → Nat
  shrinks : ∀ {input rest : α} {item : κ}, next input = .item item rest → size rest < size input

/-- What became of an input: the state after it, the items that were executed and what they
answered. There is no answer to a malformed input. -/
structure Batch (σ κ ρ : Type*) where
  state : σ
  executed : List κ
  replies : Option (List ρ)

/-- The same with other names for items and replies. -/
def Batch.map {σ κ ρ κ' ρ' : Type*} (item : κ → κ') (reply : ρ → ρ') (batch : Batch σ κ ρ) :
    Batch σ κ' ρ' :=
  ⟨batch.state, batch.executed.map item, batch.replies.map (List.map reply)⟩

namespace Source

variable {α κ σ ρ : Type*} (source : Source α κ)

def itemsIn : Nat → α → List κ × Bool
  | 0, _ => ([], false)
  | fuel + 1, input =>
      match source.next input with
      | .done => ([], true)
      | .malformed => ([], false)
      | .item item rest =>
          let later := itemsIn fuel rest
          (item :: later.1, later.2)

/-- The items in front of the first one that is malformed, and whether that is the whole
input. -/
def items (input : α) : List κ × Bool := source.itemsIn (source.size input + 1) input

def runIn (exec : κ → σ → σ × ρ) : Nat → α → σ → Batch σ κ ρ
  | 0, _, s => ⟨s, [], none⟩
  | fuel + 1, input, s =>
      match source.next input with
      | .done => ⟨s, [], some []⟩
      | .malformed => ⟨s, [], none⟩
      | .item item rest =>
          let after := exec item s
          let later := runIn exec fuel rest after.1
          ⟨later.state, item :: later.executed, later.replies.map (after.2 :: ·)⟩

/-- Execute every item when it is read. -/
def run (exec : κ → σ → σ × ρ) (input : α) (s : σ) : Batch σ κ ρ :=
  source.runIn exec (source.size input + 1) input s

/-- Execute a list of items. -/
def execAll (exec : κ → σ → σ × ρ) : List κ → σ → σ × List ρ
  | [], s => (s, [])
  | item :: items, s =>
      let after := exec item s
      let later := execAll exec items after.1
      (later.1, after.2 :: later.2)

/-- More fuel than the size of an input changes nothing. -/
theorem itemsIn_eq {fuel fuel' : Nat} {input : α} (enough : source.size input < fuel)
    (enough' : source.size input < fuel') :
    source.itemsIn fuel input = source.itemsIn fuel' input := by
  induction fuel generalizing fuel' input with
  | zero => omega
  | succ fuel ih =>
      obtain ⟨fuel', rfl⟩ := Nat.exists_eq_add_of_lt enough'
      cases front : source.next input with
      | done => simp only [itemsIn, front]
      | malformed => simp only [itemsIn, front]
      | item item rest =>
          have shorter := source.shrinks front
          have same := @ih (source.size input + fuel') rest (by omega) (by omega)
          simp only [itemsIn, front, same]

theorem items_of_done {input : α} (front : source.next input = .done) :
    source.items input = ([], true) := by
  simp only [items, itemsIn, front]

theorem items_of_malformed {input : α} (front : source.next input = .malformed) :
    source.items input = ([], false) := by
  simp only [items, itemsIn, front]

theorem items_of_item {input rest : α} {item : κ} (front : source.next input = .item item rest) :
    source.items input = (item :: (source.items rest).1, (source.items rest).2) := by
  have later : source.itemsIn (source.size input) rest = source.items rest :=
    source.itemsIn_eq (source.shrinks front) (Nat.lt_succ_self _)
  simp only [items, itemsIn, front] at later ⊢
  rw [later]

/-- A tag that every reply copies from its item. -/
theorem map_execAll {τ : Type*} {exec : κ → σ → σ × ρ} {tag : κ → τ} {tag' : ρ → τ}
    (copies : ∀ item s, tag' (exec item s).2 = tag item) (items : List κ) (s : σ) :
    (execAll exec items s).2.map tag' = items.map tag := by
  induction items generalizing s with
  | nil => rfl
  | cons item items ih => simp only [execAll, List.map_cons, copies, ih]

theorem runIn_eq (exec : κ → σ → σ × ρ) (fuel : Nat) (input : α) (s : σ) :
    source.runIn exec fuel input s =
      { state := (execAll exec (source.itemsIn fuel input).1 s).1
        executed := (source.itemsIn fuel input).1
        replies := if (source.itemsIn fuel input).2 then
          some (execAll exec (source.itemsIn fuel input).1 s).2 else none } := by
  induction fuel generalizing input s with
  | zero => rfl
  | succ fuel ih =>
      cases front : source.next input with
      | done => simp [runIn, itemsIn, front, execAll]
      | malformed => simp [runIn, itemsIn, front, execAll]
      | item item rest =>
          simp only [runIn, itemsIn, front, ih, execAll]
          split <;> rfl

/-- All items in front of the first malformed one are executed, and the replies are given when
there is none. -/
theorem run_eq (exec : κ → σ → σ × ρ) (input : α) (s : σ) :
    source.run exec input s =
      { state := (execAll exec (source.items input).1 s).1
        executed := (source.items input).1
        replies := if (source.items input).2 then
          some (execAll exec (source.items input).1 s).2 else none } :=
  source.runIn_eq exec _ input s

end Source

/-- How a batch ends, by the items that were found and whether they are the whole input. A
reply carries the tag of its item. -/
inductive Batch.Ends {σ κ ρ τ : Type*} (tag : κ → τ) (tag' : ρ → τ) (found : List κ × Bool)
    (s : σ) : Batch σ κ ρ → Prop
  /-- Refused before an item was read. -/
  | refused : found.2 = true ∨ found.1 = [] → Ends tag tag' found s ⟨s, [], none⟩
  | malformed (state : σ) : found.2 = false → (found.1 = [] → state = s) →
      Ends tag tag' found s ⟨state, found.1, none⟩
  | answered (state : σ) (replies : List ρ) : found.2 = true →
      replies.map tag' = found.1.map tag → Ends tag tag' found s ⟨state, found.1, some replies⟩

namespace Batch.Ends

variable {α σ κ ρ κ' ρ' τ : Type*} {tag : κ → τ} {tag' : ρ → τ} {found : List κ × Bool} {s : σ}
  {batch : Batch σ κ ρ}

theorem of_run (source : Source α κ) {exec : κ → σ → σ × ρ}
    (copies : ∀ item s, tag' (exec item s).2 = tag item) (input : α) (s : σ) :
    Ends tag tag' (source.items input) s (source.run exec input s) := by
  rw [Source.run_eq]
  cases whole : (source.items input).2 with
  | false =>
      refine .malformed _ whole fun nothing => ?_
      rw [nothing]
      rfl
  | true => exact .answered _ _ whole (Source.map_execAll copies _ s)

/-- Other names for items and replies, under which they keep their tags. -/
theorem map (ends : Ends tag tag' found s batch) {item : κ → κ'} {reply : ρ → ρ'}
    {newTag : κ' → τ} {newTag' : ρ' → τ} (same : ∀ k, newTag (item k) = tag k)
    (same' : ∀ r, newTag' (reply r) = tag' r) :
    Ends newTag newTag' (found.1.map item, found.2) s (batch.map item reply) := by
  cases ends with
  | refused fine => exact .refused (fine.imp id fun nothing => by rw [nothing, List.map_nil])
  | malformed state partly untouched =>
      exact .malformed state partly fun nothing => untouched (List.map_eq_nil_iff.mp nothing)
  | answered state replies whole tags =>
      refine .answered state _ whole ?_
      simpa [same, same', Function.comp_def] using tags

/-- An input without an answer has left nothing behind exactly when its first item was
malformed, if any was. -/
theorem untouched_iff (ends : Ends tag tag' found s batch) :
    (batch.replies = none → batch.executed = [] ∧ batch.state = s) ↔
      (found.2 = true ∨ found.1 = []) := by
  cases ends with
  | refused fine => exact ⟨fun _ => fine, fun _ _ => ⟨rfl, rfl⟩⟩
  | malformed state partly untouched =>
      rw [partly]
      constructor
      · intro left
        exact .inr (left rfl).1
      · rintro (whole | nothing) _
        · cases whole
        · exact ⟨nothing, untouched nothing⟩
  | answered state replies whole tags => exact ⟨fun _ => .inl whole, nofun⟩

end Batch.Ends
