import Centrifugo.Json.Tree
import Mathlib.Data.Char
import Mathlib.Data.List.Lex
import Mathlib.Data.List.Perm.Basic
import Mathlib.Data.List.Sort

/-!
# Values in a program

A program that has sorted maps for objects and numbers in a format of its own changes what a value
stands for exactly when an object repeats a name or a number does not fit the format. It may also
reserve a name, under which it has a whole value in a text.

Integers of 64 bits come back as they were when they are printed. A float comes back as the decimal
that is printed for it, which may stand for another number.
-/

namespace Json

/-! ## Sorted maps -/

theorem forall₂_iff_of_mem {α β : Type} {R S : α → β → Prop} {l : List α} {l' : List β}
    (same : ∀ a ∈ l, ∀ b ∈ l', R a b ↔ S a b) : List.Forall₂ R l l' ↔ List.Forall₂ S l l' := by
  induction l generalizing l' with
  | nil => rw [List.forall₂_nil_left_iff, List.forall₂_nil_left_iff]
  | cons a l ih =>
      cases l' with
      | nil => simp
      | cons b l' =>
          rw [List.forall₂_cons, List.forall₂_cons, same a List.mem_cons_self b List.mem_cons_self,
            ih fun a mem b mem' =>
              same a (List.mem_cons_of_mem _ mem) b (List.mem_cons_of_mem _ mem')]

theorem forall₂_iff_forall {α β : Type} {P Q : α → β → Prop} {E : α → Prop} {l : List α}
    {l' : List β} (each : List.Forall₂ P l l')
    (same : ∀ a ∈ l, ∀ b, P a b → (Q a b ↔ E a)) : List.Forall₂ Q l l' ↔ ∀ a ∈ l, E a := by
  induction each with
  | nil => simp
  | cons here _ ih =>
      rw [List.forall₂_cons, List.forall_mem_cons, same _ List.mem_cons_self _ here,
        ih fun a mem => same a (List.mem_cons_of_mem _ mem)]

theorem map_eq_map_iff_forall₂ {α β γ : Type} {g : α → γ} {h : β → γ} {l : List α}
    {l' : List β} : l.map g = l'.map h ↔ List.Forall₂ (fun a b => g a = h b) l l' := by
  rw [← List.forall₂_eq_eq_eq, List.forall₂_map_left_iff, List.forall₂_map_right_iff]

section

variable {α : Type}

/-- Put an entry into a sorted map, in place of one of the same name. -/
def insertMember (members : List (Text × α)) (m : Text × α) : List (Text × α) :=
  (members.filter fun e => e.1 ≠ m.1).orderedInsert (fun a b => a.1 ≤ b.1) m

/-- The map of some members. Of two with one name the last one counts. -/
def mapOf (members : List (Text × α)) : List (Text × α) := members.foldl insertMember []

theorem insertMember_perm (members : List (Text × α)) (m : Text × α) :
    (insertMember members m).Perm (m :: members.filter fun e => e.1 ≠ m.1) :=
  List.perm_orderedInsert _ _ _

theorem nodup_insertMember {members : List (Text × α)} {m : Text × α}
    (nodup : (members.map Prod.fst).Nodup) : ((insertMember members m).map Prod.fst).Nodup := by
  rw [((insertMember_perm members m).map Prod.fst).nodup_iff, List.map_cons, List.nodup_cons]
  constructor
  · intro mem
    obtain ⟨e, inside, same⟩ := List.mem_map.mp mem
    simpa [same] using (List.mem_filter.mp inside).2
  · exact nodup.sublist (List.filter_sublist.map _)

/-- A map has each name once. -/
theorem nodup_mapOf (members : List (Text × α)) : ((mapOf members).map Prod.fst).Nodup := by
  have general : ∀ (front : List (Text × α)), (front.map Prod.fst).Nodup →
      ((members.foldl insertMember front).map Prod.fst).Nodup := by
    induction members with
    | nil => exact fun front nodup => nodup
    | cons m members ih => exact fun front nodup => ih _ (nodup_insertMember nodup)
  exact general [] List.nodup_nil

theorem mem_names_insertMember {members : List (Text × α)} {m : Text × α} {name : Text} :
    name ∈ (insertMember members m).map Prod.fst ↔ name = m.1 ∨ name ∈ members.map Prod.fst := by
  rw [((insertMember_perm members m).map Prod.fst).mem_iff, List.map_cons, List.mem_cons]
  by_cases same : name = m.1
  · simp [same]
  · refine or_congr_right ?_
    simp only [List.mem_map, List.mem_filter, decide_eq_true_eq]
    constructor
    · rintro ⟨e, ⟨inside, -⟩, rfl⟩
      exact ⟨e, inside, rfl⟩
    · rintro ⟨e, inside, rfl⟩
      exact ⟨e, ⟨inside, same⟩, rfl⟩

/-- A map has the names of its members. -/
theorem mem_names_mapOf {members : List (Text × α)} {name : Text} :
    name ∈ (mapOf members).map Prod.fst ↔ name ∈ members.map Prod.fst := by
  have general : ∀ front : List (Text × α),
      name ∈ (members.foldl insertMember front).map Prod.fst ↔
        name ∈ front.map Prod.fst ∨ name ∈ members.map Prod.fst := by
    induction members with
    | nil => simp
    | cons m members ih =>
        intro front
        rw [List.foldl_cons, ih, mem_names_insertMember, List.map_cons, List.mem_cons]
        tauto
  rw [mapOf, general]
  simp

/-- Members of different names are all kept. -/
theorem mapOf_perm {members : List (Text × α)} (nodup : (members.map Prod.fst).Nodup) :
    (mapOf members).Perm members := by
  have general : ∀ (front : List (Text × α)), ((front ++ members).map Prod.fst).Nodup →
      (members.foldl insertMember front).Perm (front ++ members) := by
    clear nodup
    induction members with
    | nil =>
        intro front _
        rw [List.append_nil]
        rfl
    | cons m members ih =>
        intro front nodup
        have fresh : (front.filter fun e => e.1 ≠ m.1) = front := by
          refine List.filter_eq_self.mpr ?_
          intro e inside
          have apart := List.nodup_append.mp (List.map_append ▸ nodup)
          simpa using apart.2.2 e.1 (List.mem_map_of_mem inside) m.1
            (List.mem_map_of_mem List.mem_cons_self)
        have first : (insertMember front m ++ members).Perm (front ++ m :: members) := by
          refine ((insertMember_perm front m).append_right members).trans ?_
          rw [fresh, List.cons_append]
          exact List.perm_middle.symm
        exact (ih _ ((first.map Prod.fst).nodup_iff.mpr nodup)).trans first
  exact general [] nodup

/-- Two arrangements of entries with the same names in the same order. -/
theorem eq_of_perm_of_names {l l' : List (Text × α)} (perm : l.Perm l')
    (names : l.map Prod.fst = l'.map Prod.fst) (nodup : (l'.map Prod.fst).Nodup) : l = l' := by
  induction l generalizing l' with
  | nil => exact perm.nil_eq
  | cons a l ih =>
      cases l' with
      | nil => cases names
      | cons b l' =>
          obtain ⟨fresh, distinct⟩ := List.nodup_cons.mp nodup
          obtain ⟨name, others⟩ := List.cons.inj names
          have same : a = b := by
            obtain same | later := List.mem_cons.mp (perm.subset List.mem_cons_self)
            · exact same
            · exact absurd (name ▸ List.mem_map_of_mem later) fresh
          subst same
          rw [ih (List.Perm.cons_inv perm) others distinct]

end

/-- Members whose values are changed keep their names. -/
theorem names_of_forall₂ {α β : Type} {f : α → Option β} {l : List (Text × α)}
    {l' : List (Text × β)}
    (each : List.Forall₂ (fun m n => (f m.2).map (fun b => (m.1, b)) = some n) l l') :
    l'.map Prod.fst = l.map Prod.fst := by
  refine (map_eq_map_iff_forall₂.mpr (each.imp ?_)).symm
  intro m n here
  obtain ⟨b, -, rfl⟩ := Option.map_eq_some_iff.mp here
  rfl

namespace Tree

variable {ν μ : Type}

/-! ## Values in a program -/

/-- How a program reads: its numbers, and the name that it reserves for a value in a text, with
what it makes of such a text. -/
structure Reading (ν : Type) where
  parse : Text → Option ν
  token : Text
  unwrap : Text → Option (Tree ν)

/-- The text of an object that has nothing but a text. -/
def soleText : List (Text × Tree Text) → Option Text
  | [(_, .string text)] => some text
  | _ => none

theorem eq_of_soleText {members : List (Text × Tree Text)} {text : Text}
    (sole : soleText members = some text) : ∃ name, members = [(name, .string text)] := by
  unfold soleText at sole
  split at sole
  · cases sole
    exact ⟨_, rfl⟩
  · cases sole

mutual

/-- What a program has for a value: sorted maps for objects, numbers of its own. An object whose
first name is the reserved one is the value in its text. -/
def convert (r : Reading ν) : Tree Text → Option (Tree ν)
  | .null => some .null
  | .bool b => some (.bool b)
  | .number n => (r.parse n).map .number
  | .string text => some (.string text)
  | .array elements => (convertElements r elements).map .array
  | .object members =>
      if (members.map Prod.fst).head? = some r.token then (soleText members).bind r.unwrap
      else (convertMembers r members).map fun members => .object (mapOf members)

def convertElements (r : Reading ν) : List (Tree Text) → Option (List (Tree ν))
  | [] => some []
  | t :: rest => do
      let t ← convert r t
      let rest ← convertElements r rest
      some (t :: rest)

def convertMembers (r : Reading ν) : List (Text × Tree Text) → Option (List (Text × Tree ν))
  | [] => some []
  | (name, t) :: rest => do
      let t ← convert r t
      let rest ← convertMembers r rest
      some ((name, t) :: rest)

end

theorem convert_array (r : Reading ν) (elements : List (Tree Text)) :
    convert r (.array elements) = (elements.mapM (convert r)).map .array := by
  have each : convertElements r elements = elements.mapM (convert r) := by
    induction elements with
    | nil => rfl
    | cons t rest ih =>
        rw [convertElements, ih, List.mapM_cons]
        rfl
  rw [convert, each]

theorem convert_object (r : Reading ν) (members : List (Text × Tree Text)) :
    convert r (.object members) =
      if (members.map Prod.fst).head? = some r.token then (soleText members).bind r.unwrap
      else (members.mapM fun m => (convert r m.2).map fun t => (m.1, t)).map fun members =>
        .object (mapOf members) := by
  have each : convertMembers r members =
      members.mapM fun m => (convert r m.2).map fun t => (m.1, t) := by
    induction members with
    | nil => rfl
    | cons m rest ih =>
        rw [convertMembers, ih, List.mapM_cons]
        cases convert r m.2 <;> rfl
  rw [convert, each]

/-- Only the strings of a value can be texts of other values. -/
theorem convert_congr {r : Reading ν} {unwrap : Text → Option (Tree ν)} {t : Tree Text}
    (same : t.Strings fun text => r.unwrap text = unwrap text) :
    convert r t = convert { r with unwrap := unwrap } t := by
  induction t using induct with
  | null => rfl
  | bool b => rfl
  | number n => rfl
  | string text => rfl
  | array elements ih =>
      rw [strings_array] at same
      rw [convert_array, convert_array, mapM_congr fun t mem => ih t mem (same t mem)]
  | object members ih =>
      rw [strings_object] at same
      have each : (members.mapM fun m => (convert r m.2).map fun t => (m.1, t)) =
          members.mapM fun m => (convert { r with unwrap := unwrap } m.2).map fun t => (m.1, t) :=
        mapM_congr fun m mem => by rw [ih m mem (same m mem)]
      rw [convert_object, convert_object, each]
      refine if_congr Iff.rfl ?_ rfl
      cases sole : soleText members with
      | none => rfl
      | some text =>
          obtain ⟨name, rfl⟩ := eq_of_soleText sole
          exact same _ List.mem_cons_self

/-! ## The same value -/

/-- Two values that differ at most in the order of members, and in numbers that are related. -/
def Same (R : ν → μ → Prop) : Tree ν → Tree μ → Prop :=
  fold {
    null := fun u => u = .null
    bool := fun b u => u = .bool b
    number := fun n u => ∃ m, u = .number m ∧ R n m
    string := fun text u => u = .string text
    array := fun same u => ∃ elements, u = .array elements ∧
      List.Forall₂ (fun (s : Tree μ → Prop) t => s t) same elements
    object := fun same u => ∃ members arranged, u = .object members ∧ arranged.Perm members ∧
      List.Forall₂ (fun (s : Text × (Tree μ → Prop)) m => s.1 = m.1 ∧ s.2 m.2) same arranged }

/-- No object begins with the reserved name or has a name twice, and all numbers are kept. -/
def Exact (token : Text) (kept : ν → Prop) : Tree ν → Prop :=
  fold {
    null := True
    bool := fun _ => True
    number := kept
    string := fun _ => True
    array := fun exact => ∀ e ∈ exact, e
    object := fun exact => (exact.map Prod.fst).head? ≠ some token ∧
      (exact.map Prod.fst).Nodup ∧ ∀ e ∈ exact, e.2 }

section

variable {R : ν → μ → Prop} {token : Text} {kept : ν → Prop}

theorem same_array {elements : List (Tree ν)} {u : Tree μ} : Same R (.array elements) u ↔
    ∃ others, u = .array others ∧ List.Forall₂ (Same R) elements others := by
  rw [Same, fold_array]
  simp only [List.forall₂_map_left_iff]

theorem same_object {members : List (Text × Tree ν)} {u : Tree μ} : Same R (.object members) u ↔
    ∃ others arranged, u = .object others ∧ arranged.Perm others ∧
      List.Forall₂ (fun m n => m.1 = n.1 ∧ Same R m.2 n.2) members arranged := by
  rw [Same, fold_object]
  simp only [List.forall₂_map_left_iff]

theorem exact_array {elements : List (Tree ν)} :
    Exact token kept (.array elements) ↔ ∀ t ∈ elements, Exact token kept t := by
  rw [Exact, fold_array]
  simp only [List.forall_mem_map]

theorem exact_object {members : List (Text × Tree ν)} : Exact token kept (.object members) ↔
    (members.map Prod.fst).head? ≠ some token ∧ (members.map Prod.fst).Nodup ∧
      ∀ m ∈ members, Exact token kept m.2 := by
  rw [Exact, fold_object]
  simp only [List.forall_mem_map, List.map_map]
  rfl

/-- Numbers of another kind on one side. -/
theorem same_map_iff {ρ : Type} {R : ν → ρ → Prop} {g : μ → ρ} {t : Tree ν} {v : Tree μ} :
    Same R t (v.map g) ↔ Same (fun n m => R n (g m)) t v := by
  induction t using induct generalizing v with
  | null => cases v <;> simp [Same, map]
  | bool b => cases v <;> simp [Same, map]
  | number n => cases v <;> simp [Same, map]
  | string text => cases v <;> simp [Same, map]
  | array elements ih =>
      cases v with
      | array others =>
          have each : List.Forall₂ (Same R) elements (others.map (map g)) ↔
              List.Forall₂ (Same fun n m => R n (g m)) elements others := by
            rw [List.forall₂_map_right_iff]
            exact forall₂_iff_of_mem fun t mem v _ => ih t mem
          simpa [same_array] using each
      | _ => simp [same_array, map]
  | object members ih =>
      cases v with
      | object others =>
          have each : ∀ arranged : List (Text × Tree μ),
              List.Forall₂ (fun m n => m.1 = n.1 ∧ Same R m.2 n.2) members
                  (arranged.map fun m => (m.1, map g m.2)) ↔
                List.Forall₂ (fun m n => m.1 = n.1 ∧ Same (fun n m => R n (g m)) m.2 n.2) members
                  arranged := by
            intro arranged
            rw [List.forall₂_map_right_iff]
            exact forall₂_iff_of_mem fun m mem n _ => and_congr_right fun _ => ih m mem
          rw [map_object, same_object, same_object]
          constructor
          · rintro ⟨_, arranged, same, perm, related⟩
            cases same
            obtain ⟨plain, rfl, inner⟩ :=
              (congrFun (congrFun (List.eq_map_comp_perm _) arranged) others).mpr perm
            exact ⟨others, plain, rfl, inner, (each plain).mp related⟩
          · rintro ⟨_, arranged, same, perm, related⟩
            cases same
            exact ⟨_, _, rfl, perm.map _, (each arranged).mpr related⟩
      | _ => simp [same_object, map]

/-- What a program has for a value is the same value just if that is exact, provided that a text
under the reserved name is not for an object of that name alone. -/
theorem same_convert_iff {R : Text → μ → Prop} {r : Reading μ}
    (free : ∀ text members, r.unwrap text = some (.object members) →
      members.map Prod.fst ≠ [r.token]) {t : Tree Text} {v : Tree μ}
    (converted : t.convert r = some v) :
    Same R t v ↔ Exact r.token (fun text => ∀ n, r.parse text = some n → R text n) t := by
  induction t using induct generalizing v with
  | null =>
      cases converted
      exact ⟨fun _ => trivial, fun _ => rfl⟩
  | bool b =>
      cases converted
      exact ⟨fun _ => trivial, fun _ => rfl⟩
  | string text =>
      cases converted
      exact ⟨fun _ => trivial, fun _ => rfl⟩
  | number text =>
      obtain ⟨n, parsed, rfl⟩ := Option.map_eq_some_iff.mp converted
      constructor
      · rintro ⟨m, same, related⟩ other found
        cases same
        cases parsed.symm.trans found
        exact related
      · intro kept
        exact ⟨n, rfl, kept n parsed⟩
  | array elements ih =>
      rw [convert_array] at converted
      obtain ⟨vs, each, rfl⟩ := Option.map_eq_some_iff.mp converted
      rw [mapM_eq_some] at each
      have exactly := forall₂_iff_forall each ih
      rw [same_array, exact_array, ← exactly]
      constructor
      · rintro ⟨_, same, related⟩
        cases same
        exact related
      · intro related
        exact ⟨vs, rfl, related⟩
  | object members ih =>
      rw [convert_object] at converted
      rw [same_object, exact_object]
      split at converted
      next reserved =>
        obtain ⟨text, sole, unwrapped⟩ := Option.bind_eq_some_iff.mp converted
        obtain ⟨name, rfl⟩ := eq_of_soleText sole
        cases reserved
        constructor
        · rintro ⟨others, arranged, rfl, perm, related⟩
          obtain _ | ⟨⟨same, -⟩, ⟨⟩⟩ := related
          cases List.singleton_perm.mp perm
          exact absurd (congrArg (· :: []) same.symm) (free text _ unwrapped)
        · rintro ⟨unreserved, -⟩
          exact absurd rfl unreserved
      next unreserved =>
        obtain ⟨vs, each, rfl⟩ := Option.map_eq_some_iff.mp converted
        rw [mapM_eq_some] at each
        have names : vs.map Prod.fst = members.map Prod.fst := names_of_forall₂ each
        have exactly : List.Forall₂ (fun m n => m.1 = n.1 ∧ Same R m.2 n.2) members vs ↔
            ∀ m ∈ members,
              Exact r.token (fun text => ∀ n, r.parse text = some n → R text n) m.2 := by
          refine forall₂_iff_forall each ?_
          intro m mem n here
          obtain ⟨v, made, rfl⟩ := Option.map_eq_some_iff.mp here
          rw [← ih m mem made]
          exact and_iff_right rfl
        rw [← exactly]
        constructor
        · rintro ⟨_, arranged, same, perm, related⟩
          cases same
          have arrangedNames : members.map Prod.fst = arranged.map Prod.fst :=
            map_eq_map_iff_forall₂.mpr (related.imp fun _ _ here => here.1)
          have nodup : (members.map Prod.fst).Nodup := by
            rw [arrangedNames, (perm.map Prod.fst).nodup_iff]
            exact nodup_mapOf vs
          have straight : arranged = vs :=
            eq_of_perm_of_names (perm.trans (mapOf_perm (names ▸ nodup)))
              (arrangedNames.symm.trans names.symm) (names ▸ nodup)
          exact ⟨unreserved, nodup, straight ▸ related⟩
        · rintro ⟨-, nodup, related⟩
          exact ⟨_, vs, rfl, (mapOf_perm (names ▸ nodup)).symm, related⟩

end

end Tree

/-! ## Numbers of 64 bits -/

/-- A format of finite floats: the one that a number text is read as, if it is in the range of
the format, and the text that is printed for it. -/
structure FloatFormat where
  F : Type
  parse : Text → Option F
  print : F → RawValue
  decimal : ∀ x, (readDecimal (print x).text).isSome

/-- Two texts that stand for the same number. -/
def SameNumber (a b : Text) : Prop := ∃ q, readDecimal a = some q ∧ readDecimal b = some q

/-- A number as a program has it. -/
inductive Number (F : Type)
  | posInt (n : Nat) (fits : n < 2 ^ 64)
  | negInt (n : Nat) (negative : 0 < n) (fits : n ≤ 2 ^ 63)
  | float (x : F)

namespace Number

variable (format : FloatFormat)

/-- What has a fraction or an exponent is a float, as are longer integers and minus zero. -/
def parse (text : Text) : Option (Number format.F) :=
  match text with
  | '-' :: digits =>
      if h : digits.all Char.isDigit ∧ 0 < digitsValue digits ∧ digitsValue digits ≤ 2 ^ 63 then
        some (.negInt (digitsValue digits) h.2.1 h.2.2)
      else (format.parse text).map .float
  | digits =>
      if h : digits ≠ [] ∧ digits.all Char.isDigit ∧ digitsValue digits < 2 ^ 64 then
        some (.posInt (digitsValue digits) h.2.2)
      else (format.parse text).map .float

def print : Number format.F → RawValue
  | .posInt n _ => .number n
  | .negInt n _ _ => .negative n
  | .float x => format.print x

variable {format}

theorem decimal (n : Number format.F) : (readDecimal (n.print format).text).isSome := by
  cases n with
  | posInt n fits => exact Option.isSome_of_eq_some (readDecimal_number n)
  | negInt n negative fits => exact Option.isSome_of_eq_some (readDecimal_negative n)
  | float x => exact format.decimal x

/-- Integers of 64 bits are printed as they were read. -/
theorem parse_cases {text : Text} {n : Number format.F} (parsed : parse format text = some n) :
    (∃ x, n = .float x) ∨ SameNumber text (n.print format).text := by
  unfold parse at parsed
  split at parsed
  next digits =>
    split at parsed
    next integer =>
      cases parsed
      have digit := List.all_eq_true.mp integer.1
      have nonempty : digits ≠ [] := by
        rintro rfl
        exact absurd integer.2.1 (Nat.lt_irrefl 0)
      exact .inr ⟨_, readDecimal_minus digit nonempty, readDecimal_negative _⟩
    next =>
      obtain ⟨x, -, rfl⟩ := Option.map_eq_some_iff.mp parsed
      exact .inl ⟨x, rfl⟩
  next =>
    split at parsed
    next integer =>
      cases parsed
      have digit := List.all_eq_true.mp integer.2.1
      exact .inr ⟨_, readDecimal_digits digit integer.1, readDecimal_number _⟩
    next =>
      obtain ⟨x, -, rfl⟩ := Option.map_eq_some_iff.mp parsed
      exact .inl ⟨x, rfl⟩

/-- Only a float can be printed as another number. -/
theorem sameNumber_iff {text : Text} :
    (∀ n, parse format text = some n → SameNumber text (n.print format).text) ↔
      ∀ x, parse format text = some (.float x) → SameNumber text (format.print x).text := by
  constructor
  · intro same x parsed
    exact same (.float x) parsed
  · intro same n parsed
    obtain ⟨x, rfl⟩ | kept := parse_cases parsed
    · exact same x parsed
    · exact kept

end Number

/-! ## Values -/

/-- A value as a program has it. -/
abbrev Value (format : FloatFormat) := Tree (Number format.F)

namespace Value

variable (format : FloatFormat)

/-- How many containers may stand in each other. -/
def depthLimit : Nat := 127

/-- The reserved name. -/
def token : Text := "$serde_json::private::RawValue".toList

def ofTextIn : Nat → Text → Option (Value format)
  | 0, _ => none
  | fuel + 1, text => (RawValue.fromString text).bind fun value =>
      (Tree.read depthLimit value).bind
        (Tree.convert ⟨Number.parse format, token, ofTextIn fuel⟩)

/-- The value that a text is, with whitespace around it. A text inside is shorter, so the length
of the text is fuel enough. -/
def ofText (text : Text) : Option (Value format) := ofTextIn format (text.length + 1) text

def reading : Tree.Reading (Number format.F) where
  parse := Number.parse format
  token := token
  unwrap := ofText format

def toRaw (v : Value format) : RawValue := Tree.print (Number.print format) v

/-- Two texts of the same value, up to the order of members and to notation. -/
def SameText (a b : RawValue) : Prop :=
  ∃ depth t u, Tree.read depth a = some t ∧ Tree.read depth b = some u ∧ t.Same SameNumber u

/-- No object begins with the reserved name or has a name twice, and each number that is read as
a float is the one that is printed for the float. -/
def Exact (value : RawValue) : Prop :=
  ∀ t, Tree.read depthLimit value = some t → t.Exact token fun text =>
    ∀ x, Number.parse format text = some (.float x) → SameNumber text (format.print x).text

theorem ofTextIn_of_le {fuel more : Nat} {text : Text} (enough : text.length < fuel)
    (le : fuel ≤ more) : ofTextIn format more text = ofTextIn format fuel text := by
  induction fuel generalizing more text with
  | zero => cases enough
  | succ fuel ih =>
      obtain ⟨more, rfl⟩ : ∃ n, more = n + 1 := ⟨more - 1, by omega⟩
      rw [ofTextIn, ofTextIn]
      refine Option.bind_congr fun value made => Option.bind_congr fun t taken => ?_
      refine Tree.convert_congr ((Tree.strings_read taken).mono fun inner shorter => ?_)
      have trimmed := length_trim_le text
      rw [← RawValue.fromString_eq_some.mp made] at trimmed
      exact ih (by omega) (by omega)

variable {format}

theorem ofText_eq_some {text : Text} {v : Value format} : ofText format text = some v ↔
    ∃ value t, RawValue.fromString text = some value ∧ Tree.read depthLimit value = some t ∧
      t.convert (reading format) = some v := by
  have same : ∀ value t, RawValue.fromString text = some value →
      Tree.read depthLimit value = some t →
      t.convert ⟨Number.parse format, token, ofTextIn format text.length⟩ =
        t.convert (reading format) := by
    intro value t made taken
    refine Tree.convert_congr ((Tree.strings_read taken).mono fun inner shorter => ?_)
    have trimmed := length_trim_le text
    rw [← RawValue.fromString_eq_some.mp made] at trimmed
    exact ofTextIn_of_le format (Nat.lt_succ_self _) (by omega)
  simp only [ofText, ofTextIn, Option.bind_eq_some_iff]
  constructor
  · rintro ⟨value, made, t, taken, converted⟩
    exact ⟨value, t, made, taken, same value t made taken ▸ converted⟩
  · rintro ⟨value, t, made, taken, converted⟩
    exact ⟨value, made, t, taken, same value t made taken ▸ converted⟩

/-- No text is an object of the reserved name alone. -/
theorem ofText_ne_token {text : Text} {members : List (Text × Value format)}
    (read : ofText format text = some (.object members)) : members.map Prod.fst ≠ [token] := by
  induction size : text.length using Nat.strongRecOn generalizing text with
  | ind n ih =>
      obtain ⟨value, t, made, taken, converted⟩ := ofText_eq_some.mp read
      cases t with
      | object ms =>
          rw [Tree.convert_object] at converted
          split at converted
          next =>
            obtain ⟨inner, sole, unwrapped⟩ := Option.bind_eq_some_iff.mp converted
            obtain ⟨name, rfl⟩ := Tree.eq_of_soleText sole
            have shorter : inner.length < value.text.length :=
              Tree.strings_object.mp (Tree.strings_read taken) _ List.mem_cons_self
            have trimmed := length_trim_le text
            rw [← RawValue.fromString_eq_some.mp made] at trimmed
            exact ih inner.length (by omega) unwrapped rfl
          next unreserved =>
            obtain ⟨vs, each, same⟩ := Option.map_eq_some_iff.mp converted
            cases same
            have names : vs.map Prod.fst = ms.map Prod.fst :=
              names_of_forall₂ (mapM_eq_some.mp each)
            intro alone
            cases ms with
            | nil =>
                cases each
                cases alone
            | cons m ms =>
                have mem : m.1 ∈ (mapOf vs).map Prod.fst := by
                  rw [mem_names_mapOf, names]
                  exact List.mem_cons_self
                rw [alone, List.mem_singleton] at mem
                exact unreserved (congrArg some mem)
      | number n =>
          obtain ⟨m, -, same⟩ := Option.map_eq_some_iff.mp converted
          cases same
      | array elements =>
          rw [Tree.convert_array] at converted
          obtain ⟨m, -, same⟩ := Option.map_eq_some_iff.mp converted
          cases same
      | _ => cases converted

/-- A value that is read and printed again is the same just if it is exact. -/
theorem sameText_toRaw_iff {value : RawValue} {v : Value format}
    (read : ofText format value.text = some v) :
    SameText value (v.toRaw format) ↔ Exact format value := by
  obtain ⟨value', t, made, taken, converted⟩ := ofText_eq_some.mp read
  rw [RawValue.fromString_text] at made
  cases made
  obtain ⟨deep, printed⟩ := Tree.read_print Number.decimal v
  have same : t.Same SameNumber (v.map fun n => (n.print format).text) ↔ t.Exact token fun text =>
      ∀ x, Number.parse format text = some (.float x) →
        SameNumber text (format.print x).text := by
    rw [Tree.same_map_iff, Tree.same_convert_iff (fun _ _ => ofText_ne_token) converted]
    exact iff_of_eq (congrArg (Tree.Exact token · t) (funext fun text =>
      propext Number.sameNumber_iff))
  constructor
  · rintro ⟨depth, t', u, taken', printed', related⟩ t'' taken''
    cases taken.symm.trans taken''
    cases Tree.read_unique taken taken'
    cases Tree.read_unique printed printed'
    exact same.mp related
  · intro kept
    refine ⟨max depthLimit deep, t, _, ?_, ?_, same.mpr (kept t taken)⟩
    · exact Tree.read_mono taken (Nat.le_max_left _ _)
    · exact Tree.read_mono printed (Nat.le_max_right _ _)

end Value

end Json
