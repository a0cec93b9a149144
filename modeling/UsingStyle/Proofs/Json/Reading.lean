import UsingStyle.Proofs.Json.Tokens
import UsingStyle.Untyped.Value

/-! # Reading JSON

Tokens are read one by one, with the arrays and objects that are still open on a stack. Every value
is read back from its own tokens, whatever is open around it, and a text that spells these tokens is
read as the value.
-/

namespace UsingStyle.Json

open Untyped

/-! ## The reader -/

/-- An array or object that is still open, with what it held so far. An object waits for the value
of a name. -/
inductive Frame where
  | array (before : List Value)
  | object (before : List (String × Value)) (name : String)

/-- What is read next. -/
inductive Awaited where
  | value
  /-- The first item of an array, or the end of the array. -/
  | firstItem
  /-- The first name of an object, or the end of the object. -/
  | firstName
  /-- One more name of an object. -/
  | name (before : List (String × Value))
  | colon (before : List (String × Value)) (name : String)
  /-- What comes behind a value. -/
  | behind (v : Value)

/-- A point between two tokens. The innermost open value comes first. -/
structure Point where
  around : List Frame
  awaited : Awaited

/-- The point behind the first token of a value. -/
def begin? (around : List Frame) : Token → Option Point
  | .openArray => some ⟨around, .firstItem⟩
  | .openObject => some ⟨around, .firstName⟩
  | .text s => some ⟨around, .behind (.text s)⟩
  | .number n => some ⟨around, .behind (.int n)⟩
  | .bool b => some ⟨around, .behind (.bool b)⟩
  | .null => some ⟨around, .behind .null⟩
  | .closeArray | .closeObject | .comma | .colon => none

/-- The point behind one more token that follows a value. -/
def resume? (v : Value) : List Frame → Token → Option Point
  | .array before :: around, .comma => some ⟨.array (before ++ [v]) :: around, .value⟩
  | .array before :: around, .closeArray => some ⟨around, .behind (.list (before ++ [v]))⟩
  | .object before name :: around, .comma => some ⟨around, .name (before ++ [(name, v)])⟩
  | .object before name :: around, .closeObject =>
    some ⟨around, .behind (.object (before ++ [(name, v)]))⟩
  | _, _ => none

/-- The point behind one more token. -/
def advance? (p : Point) (t : Token) : Option Point :=
  match p.awaited, t with
  | .value, t => begin? p.around t
  | .firstItem, .closeArray => some ⟨p.around, .behind (.list [])⟩
  | .firstItem, t => begin? (.array [] :: p.around) t
  | .firstName, .closeObject => some ⟨p.around, .behind (.object [])⟩
  | .firstName, .text name => some ⟨p.around, .colon [] name⟩
  | .name before, .text name => some ⟨p.around, .colon before name⟩
  | .colon before name, .colon => some ⟨.object before name :: p.around, .value⟩
  | .behind v, t => resume? v p.around t
  | _, _ => none

/-- The value that ends at a point with nothing open around it. -/
def Point.value? (p : Point) : Option Value :=
  match p.around, p.awaited with
  | [], .behind v => some v
  | _, _ => none

/-- The value that a text spells, with nothing but blanks around it. -/
def read? (s : String) : Option Value := do
  let ts ← tokens? s.toList
  let p ← ts.foldlM advance? ⟨[], .value⟩
  p.value?

/-! ## Values and their tokens -/

/-- Further rows of tokens, each behind a comma, and the bracket that closes them. -/
def continued (right : Token) (tss : List (List Token)) : List Token :=
  tss.flatMap (Token.comma :: ·) ++ [right]

/-- Rows of tokens between brackets, with commas between the rows. -/
def enclosed (left right : Token) : List (List Token) → List Token
  | [] => [left, right]
  | ts :: tss => left :: ts ++ continued right tss

mutual
/-- The tokens of a value. -/
def valueTokens : Value → List Token
  | .null => [.null]
  | .bool b => [.bool b]
  | .int n => [.number n]
  | .text s => [.text s]
  | .list vs => enclosed .openArray .closeArray (itemRows vs)
  | .object ms => enclosed .openObject .closeObject (memberRows ms)

/-- The tokens of each item. -/
def itemRows : List Value → List (List Token)
  | [] => []
  | v :: vs => valueTokens v :: itemRows vs

/-- The tokens of each member. -/
def memberRows : List (String × Value) → List (List Token)
  | [] => []
  | (name, v) :: ms => (.text name :: .colon :: valueTokens v) :: memberRows ms
end

/-- From any point that awaits a value, the tokens lead behind that value. -/
def Delivers (ts : List Token) (v : Value) : Prop :=
  ∀ around, ts.foldlM advance? ⟨around, .value⟩ = some ⟨around, .behind v⟩

theorem foldlM_append_of_eq_some {ts us : List Token} {p q : Point}
    (h : ts.foldlM advance? p = some q) :
    (ts ++ us).foldlM advance? p = us.foldlM advance? q := by
  rw [List.foldlM_append, h]
  rfl

/-- An array awaits its first item as any other value. -/
theorem Delivers.firstItem {ts : List Token} {v : Value} (h : Delivers ts v)
    (around : List Frame) :
    ts.foldlM advance? ⟨around, .firstItem⟩ = some ⟨.array [] :: around, .behind v⟩ := by
  have hvalue := h (.array [] :: around)
  cases ts with
  | nil => cases hvalue
  | cons t ts => cases t <;> first | exact hvalue | cases hvalue

/-! ## What follows a value -/

theorem continued_cons (right : Token) (ts : List Token) (tss : List (List Token)) :
    continued right (ts :: tss) = (.comma :: ts) ++ continued right tss := by
  rw [continued, List.flatMap_cons, List.append_assoc]
  rfl

theorem foldlM_items {tss : List (List Token)} {vs : List Value}
    (h : List.Forall₂ Delivers tss vs) (around : List Frame) (before : List Value) (v : Value) :
    (continued .closeArray tss).foldlM advance?
        ⟨.array before :: around, .behind v⟩ =
      some ⟨around, .behind (.list (before ++ v :: vs))⟩ := by
  induction h generalizing before v with
  | nil => rfl
  | @cons ts w tss vs hw _ ih =>
      have hcomma : (Token.comma :: ts).foldlM advance? ⟨.array before :: around, .behind v⟩ =
          some ⟨.array (before ++ [v]) :: around, .behind w⟩ := hw _
      rw [continued_cons, foldlM_append_of_eq_some hcomma, ih, List.append_assoc,
        List.singleton_append]

theorem Delivers.array {tss : List (List Token)} {vs : List Value}
    (h : List.Forall₂ Delivers tss vs) :
    Delivers (enclosed .openArray .closeArray tss) (.list vs) := by
  intro around
  cases h with
  | nil => rfl
  | @cons ts v tss vs hv hvs =>
      have hfirst : (Token.openArray :: ts).foldlM advance? ⟨around, .value⟩ =
          some ⟨.array [] :: around, .behind v⟩ := hv.firstItem around
      rw [enclosed, foldlM_append_of_eq_some hfirst]
      exact foldlM_items hvs around [] v

/-- The tokens are those of a name, a colon and a value. -/
def DeliversMember (ts : List Token) (m : String × Value) : Prop :=
  ∃ us, ts = .text m.1 :: .colon :: us ∧ Delivers us m.2

theorem foldlM_members {tss : List (List Token)} {ms : List (String × Value)}
    (h : List.Forall₂ DeliversMember tss ms) (around : List Frame)
    (before : List (String × Value)) (name : String) (v : Value) :
    (continued .closeObject tss).foldlM advance?
        ⟨.object before name :: around, .behind v⟩ =
      some ⟨around, .behind (.object (before ++ (name, v) :: ms))⟩ := by
  induction h generalizing before name v with
  | nil => rfl
  | @cons ts m tss ms hm _ ih =>
      obtain ⟨us, rfl, hus⟩ := hm
      have hcomma : (Token.comma :: .text m.1 :: .colon :: us).foldlM advance?
          ⟨.object before name :: around, .behind v⟩ =
            some ⟨.object (before ++ [(name, v)]) m.1 :: around, .behind m.2⟩ := hus _
      rw [continued_cons, foldlM_append_of_eq_some hcomma, ih, List.append_assoc,
        List.singleton_append]

theorem Delivers.object {tss : List (List Token)} {ms : List (String × Value)}
    (h : List.Forall₂ DeliversMember tss ms) :
    Delivers (enclosed .openObject .closeObject tss) (.object ms) := by
  intro around
  cases h with
  | nil => rfl
  | @cons ts m tss ms hm hms =>
      obtain ⟨us, rfl, hus⟩ := hm
      have hfirst : (Token.openObject :: .text m.1 :: .colon :: us).foldlM advance?
          ⟨around, .value⟩ = some ⟨.object [] m.1 :: around, .behind m.2⟩ := hus _
      rw [enclosed, foldlM_append_of_eq_some hfirst]
      exact foldlM_members hms around [] m.1 m.2

mutual
/-- Every value is read from its tokens. -/
theorem delivers_valueTokens (v : Value) : Delivers (valueTokens v) v := by
  cases v with
  | null => exact fun _ => rfl
  | bool b => exact fun _ => rfl
  | int n => exact fun _ => rfl
  | text s => exact fun _ => rfl
  | list vs => exact .array (forall₂_itemRows vs)
  | object ms => exact .object (forall₂_memberRows ms)

theorem forall₂_itemRows (vs : List Value) : List.Forall₂ Delivers (itemRows vs) vs := by
  cases vs with
  | nil => exact .nil
  | cons v vs => exact .cons (delivers_valueTokens v) (forall₂_itemRows vs)

theorem forall₂_memberRows (ms : List (String × Value)) :
    List.Forall₂ DeliversMember (memberRows ms) ms := by
  cases ms with
  | nil => exact .nil
  | cons m ms =>
      obtain ⟨name, v⟩ := m
      exact .cons ⟨_, rfl, delivers_valueTokens v⟩ (forall₂_memberRows ms)
end

/-! ## Written values -/

theorem isSpace_of_mem_indent {depth : Nat} {c : Char} (h : c ∈ (indent depth).toList) :
    isSpace c = true := by
  rw [indent, String.toList_ofList] at h
  rw [List.eq_of_mem_replicate h]
  rfl

/-- A new line at some depth in front makes no difference. -/
theorem Spells.line {cs : List Char} {ts : List Token} (depth : Nat) (h : Spells cs ts) :
    Spells ('\n' :: ((indent depth).toList ++ cs)) ts :=
  blanks_append (List.forall_mem_singleton.2 rfl)
    (blanks_append (fun _ => isSpace_of_mem_indent) h)

/-- The end of a written array or object behind an item of it. -/
def remainder (right : Char) (depth : Nat) (items : List String) : List Char :=
  items.flatMap (fun i => ',' :: '\n' :: ((indent (depth + 1)).toList ++ i.toList)) ++
    '\n' :: ((indent depth).toList ++ [right])

theorem toList_block_cons {left right : String} {l r : Char} (hleft : left.toList = [l])
    (hright : right.toList = [r]) (depth : Nat) (item : String) (items : List String) :
    (block left right depth (item :: items)).toList =
      l :: '\n' :: ((indent (depth + 1)).toList ++ (item.toList ++ remainder r depth items)) := by
  have hcomma : ",\n".toList = [',', '\n'] := rfl
  have hline : "\n".toList = ['\n'] := rfl
  simp [block, remainder, String.toList_join, List.flatMap_map, hleft, hright, hcomma, hline]

theorem endsNumber_remainder (right : Char) (depth : Nat) (items : List String) :
    EndsNumber (remainder right depth items) := by
  cases items with
  | nil => exact .cons rfl _
  | cons item items => exact .cons rfl _

theorem isSign_comma : IsSign ',' .comma :=
  ⟨rfl, rfl, fun _ => rfl⟩

theorem isSign_colon : IsSign ':' .colon :=
  ⟨rfl, rfl, fun _ => rfl⟩

theorem Spells.remainder {right : Char} {t : Token} (hright : IsSign right t) (depth : Nat)
    {items : List String} {tss : List (List Token)}
    (h : List.Forall₂ (fun i ts => Spells i.toList ts) items tss) :
    Spells (remainder right depth items) (continued t tss) := by
  induction h with
  | nil => exact (sign_cons hright nil).line depth
  | @cons item ts items tss hitem _ ih =>
      have hmore := sign_cons isSign_comma
        ((hitem.append ih (endsNumber_remainder right depth items)).line (depth + 1))
      rw [continued_cons, Json.remainder, List.flatMap_cons, List.append_assoc]
      simpa [Json.remainder] using hmore

theorem Spells.block {left right : String} {l r : Char} {t u : Token} (hleft : left.toList = [l])
    (hright : right.toList = [r]) (hl : IsSign l t) (hr : IsSign r u) (depth : Nat)
    {items : List String} {tss : List (List Token)}
    (h : List.Forall₂ (fun i ts => Spells i.toList ts) items tss) :
    Spells (block left right depth items).toList (enclosed t u tss) := by
  cases h with
  | nil =>
      rw [Json.block, String.toList_append, hleft, hright]
      exact sign_cons hl (sign_cons hr nil)
  | @cons item ts items tss hitem hitems =>
      rw [toList_block_cons hleft hright, enclosed, List.cons_append]
      exact sign_cons hl (((hitem.append (.remainder hr depth hitems)
        (endsNumber_remainder r depth items)).line (depth + 1)))

/-- The text is a written form of the value. -/
def Writes (s : String) (v : Value) : Prop :=
  Spells s.toList (valueTokens v)

theorem Writes.string (s : String) : Writes (string s) (.text s) :=
  Spells.string s

theorem Writes.natural (n : Nat) : Writes (Text.natural n) (.int n) :=
  Spells.natural n

theorem Writes.array (depth : Nat) {items : List String} {vs : List Value}
    (h : List.Forall₂ Writes items vs) : Writes (array depth items) (.list vs) := by
  have hrows : List.Forall₂ (fun i ts => Spells i.toList ts) items (itemRows vs) := by
    induction h with
    | nil => exact .nil
    | cons hitem _ ih => exact .cons hitem ih
  exact .block rfl rfl ⟨rfl, rfl, fun _ => rfl⟩ ⟨rfl, rfl, fun _ => rfl⟩ depth hrows

/-- A name, a colon, a blank and a written value. -/
theorem Spells.member (name : String) {s : String} {v : Value} (h : Writes s v) :
    Spells (Json.string name ++ ": " ++ s).toList
      (.text name :: .colon :: valueTokens v) := by
  have hvalue : Spells (": ".toList ++ s.toList) (.colon :: valueTokens v) :=
    sign_cons isSign_colon (blanks_append (List.forall_mem_singleton.2 rfl) h)
  rw [String.append_assoc, String.toList_append, String.toList_append]
  exact (Spells.string name).append hvalue (.cons rfl _)

theorem Writes.object (depth : Nat) {members : List (String × String)}
    {ms : List (String × Value)}
    (h : List.Forall₂ (fun m n => m.1 = n.1 ∧ Writes m.2 n.2) members ms) :
    Writes (object depth members) (.object ms) := by
  have hrows : List.Forall₂ (fun i ts => Spells i.toList ts)
      (members.map fun m => Json.string m.1 ++ ": " ++ m.2) (memberRows ms) := by
    induction h with
    | nil => exact .nil
    | @cons m n members ms hm _ ih =>
        obtain ⟨name, s⟩ := m
        obtain ⟨_, v⟩ := n
        obtain ⟨rfl, hs⟩ := hm
        exact .cons (.member name hs) ih
  exact .block rfl rfl ⟨rfl, rfl, fun _ => rfl⟩ ⟨rfl, rfl, fun _ => rfl⟩ depth hrows

/-- A written form is read as its value, also with a line feed at its end. -/
theorem read?_of_writes {s : String} {v : Value} (h : Writes s v) : read? (s ++ "\n") = some v := by
  have htokens : tokens? (s ++ "\n").toList = some (valueTokens v) := by
    have hfeed : tokens? ['\n'] = some [] := by
      rw [tokens?_space rfl, tokens?]
    rw [String.toList_append]
    refine (h ['\n'] (.cons rfl [])).trans ?_
    rw [hfeed, Option.map_some, List.append_nil]
  have hpoint := delivers_valueTokens v []
  simp only [read?, htokens, hpoint, Option.bind_eq_bind, Option.bind_some]
  rfl

end UsingStyle.Json
