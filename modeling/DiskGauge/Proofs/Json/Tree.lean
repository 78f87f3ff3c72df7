import DiskGauge.Proofs.Json.NumberText

namespace DiskGauge.Json

inductive Tree where
  | null
  | bool (value : Bool)
  | number (text : NumberText)
  | text (spelling : Spelling)
  | list (elements : List Tree)
  | object (members : List (Spelling × Tree))

def commaTokens (first : Bool) : List Bytes := if first then [] else [[0x2C]]

mutual

def Tree.tokens : Tree → List Bytes
  | .null => [0x6E :: wordNull]
  | .bool true => [0x74 :: wordTrue]
  | .bool false => [0x66 :: wordFalse]
  | .number n => [n.bytes]
  | .text s => [s.token]
  | .list elements => [0x5B] :: elementTokens true elements
  | .object members => [0x7B] :: memberTokens true members

-- What stands behind an opening bracket, or behind an element or a member.
def elementTokens (first : Bool) : List Tree → List Bytes
  | [] => [[0x5D]]
  | t :: elements => commaTokens first ++ (t.tokens ++ elementTokens false elements)

def memberTokens (first : Bool) : List (Spelling × Tree) → List Bytes
  | [] => [[0x7D]]
  | (name, t) :: members => commaTokens first ++ (name.token :: [0x3A] :: (t.tokens ++ memberTokens false members))

end

-- The bytes consist of the tokens, with any blanks around them.
inductive Spaced : List Bytes → Bytes → Prop where
  | done : Spaced [] []
  | blank {tokens : List Bytes} {b : UInt8} {bytes : Bytes} (isBlank : isBlank b = true) :
    Spaced tokens bytes → Spaced tokens (b :: bytes)
  | token {tokens : List Bytes} (b : UInt8) (tail : Bytes) {bytes : Bytes} (solid : isBlank b = false) :
    Spaced tokens bytes → Spaced ((b :: tail) :: tokens) (b :: (tail ++ bytes))

-- What may follow a value.
def Closed (more : List Bytes) : Prop := ∀ token ∈ more.head?, token = [0x2C] ∨ token = [0x5D] ∨ token = [0x7D]

variable {tokens more : List Bytes} {token bytes : Bytes}

namespace Spaced

theorem next (spaced : Spaced (token :: more) bytes) : ∃ b tail rest, token = b :: tail ∧ isBlank b = false ∧
    skipBlanks bytes = b :: (tail ++ rest) ∧ Spaced more rest := by
  generalize all : token :: more = tokens at spaced
  induction spaced with
  | done => cases all
  | blank isBlank _ ih =>
    obtain ⟨b, tail, rest, split, solid, skipped, spaced⟩ := ih all
    exact ⟨b, tail, rest, split, solid, (if_pos isBlank).trans skipped, spaced⟩
  | @token _ b tail rest solid spaced _ =>
    obtain ⟨rfl, rfl⟩ := List.cons.inj all
    exact ⟨b, tail, rest, rfl, solid, if_neg (by simp [solid]), spaced⟩

theorem next_cons (b : UInt8) (tail : Bytes) (spaced : Spaced ((b :: tail) :: more) bytes) :
    ∃ rest, isBlank b = false ∧ skipBlanks bytes = b :: (tail ++ rest) ∧ Spaced more rest := by
  obtain ⟨c, end_, rest, split, solid, skipped, spaced⟩ := spaced.next
  obtain ⟨rfl, rfl⟩ := List.cons.inj split
  exact ⟨rest, solid, skipped, spaced⟩

theorem blanks (spaced : Spaced [] bytes) : skipBlanks bytes = [] := by
  generalize all : [] = tokens at spaced
  induction spaced with
  | done => rfl
  | blank isBlank _ ih => exact (if_pos isBlank).trans (ih all)
  | token => cases all

theorem skip (spaced : Spaced tokens bytes) : Spaced tokens (skipBlanks bytes) := by
  cases tokens with
  | nil =>
    rw [spaced.blanks]
    exact .done
  | cons token more =>
    obtain ⟨b, tail, rest, rfl, solid, skipped, spaced⟩ := spaced.next
    rw [skipped]
    exact .token b tail solid spaced

-- The bytes are no fewer than the tokens.
theorem length_le (spaced : Spaced tokens bytes) : tokens.length ≤ bytes.length := by
  induction spaced with
  | done => exact Nat.le_refl _
  | blank _ _ ih => exact Nat.le_succ_of_le ih
  | token b tail _ _ ih =>
    rw [List.length_cons, List.length_cons, List.length_append]
    omega

theorem ends (closed : Closed more) (spaced : Spaced more bytes) : Ends bytes := by
  cases spaced with
  | done => exact fun b head => nomatch head
  | @blank _ b bytes isBlank _ =>
    intro c head
    obtain rfl := Option.some.inj head
    unfold Json.isBlank at isBlank
    simp only [Bool.or_eq_true, decide_eq_true_eq] at isBlank
    rcases isBlank with ((rfl | rfl) | rfl) | rfl <;> decide
  | token b tail solid _ =>
    intro c head
    obtain rfl := Option.some.inj head
    rcases closed _ rfl with comma | list | object
    · obtain ⟨rfl, _⟩ := List.cons.inj comma
      decide
    · obtain ⟨rfl, _⟩ := List.cons.inj list
      decide
    · obtain ⟨rfl, _⟩ := List.cons.inj object
      decide

end Spaced

-- The first byte of a tree tells its kind, and is not the end of a list.
structure Leads (b : UInt8) (t : Tree) : Prop where
  null : b = 0x6E → t = .null
  number : (b = 0x2D || isDigit b) = true → ∃ n, t = .number n
  text : b = 0x22 → ∃ s, t = .text s
  list : b = 0x5B → ∃ elements, t = .list elements
  object : b = 0x7B → ∃ members, t = .object members
  noEnd : ¬b = 0x5D

theorem Tree.leads (t : Tree) : ∃ b tail others, t.tokens = (b :: tail) :: others ∧ Leads b t := by
  cases t with
  | null => exact ⟨_, _, _, rfl, fun _ => rfl, nofun, nofun, nofun, nofun, nofun⟩
  | bool value => cases value <;> exact ⟨_, _, _, rfl, nofun, nofun, nofun, nofun, nofun, nofun⟩
  | text s => exact ⟨_, _, _, rfl, nofun, nofun, fun _ => ⟨s, rfl⟩, nofun, nofun, nofun⟩
  | list elements => exact ⟨_, _, _, rfl, nofun, nofun, nofun, fun _ => ⟨elements, rfl⟩, nofun, nofun⟩
  | object members => exact ⟨_, _, _, rfl, nofun, nofun, nofun, nofun, fun _ => ⟨members, rfl⟩, nofun⟩
  | number n =>
    obtain ⟨b, tail, text, lead⟩ := n.bytes_lead
    refine ⟨b, tail, [], by rw [tokens, text], ?_, fun _ => ⟨n, rfl⟩, ?_, ?_, ?_, ?_⟩ <;>
    · rintro rfl
      cases lead

theorem Spaced.lead {t : Tree} (spaced : Spaced (t.tokens ++ more) bytes) :
    ∃ b rest, skipBlanks bytes = b :: rest ∧ Leads b t := by
  obtain ⟨b, tail, others, lead, leads⟩ := t.leads
  rw [lead] at spaced
  obtain ⟨rest, _, skipped, _⟩ := spaced.next_cons _ _
  exact ⟨b, tail ++ rest, skipped, leads⟩

theorem closed_elements (elements : List Tree) (more : List Bytes) :
    Closed (elementTokens false elements ++ more) := by
  intro token head
  cases elements with
  | nil => exact .inr (.inl (Option.some.inj head).symm)
  | cons t elements => exact .inl (Option.some.inj head).symm

theorem closed_members (members : List (Spelling × Tree)) (more : List Bytes) :
    Closed (memberTokens false members ++ more) := by
  intro token head
  cases members with
  | nil => exact .inr (.inr (Option.some.inj head).symm)
  | cons m members => exact .inl (Option.some.inj head).symm

mutual

theorem Tree.compact (t : Tree) {more : List Bytes} {bytes : Bytes} (spaced : Spaced more bytes) :
    Spaced (t.tokens ++ more) (t.tokens.flatten ++ bytes) := by
  cases t with
  | null => exact .token _ wordNull rfl spaced
  | bool value =>
    cases value with
    | true => exact .token _ wordTrue rfl spaced
    | false => exact .token _ wordFalse rfl spaced
  | text s =>
    rw [Tree.tokens, List.flatten_singleton]
    exact .token _ s.tail rfl spaced
  | number n =>
    obtain ⟨b, tail, text, lead⟩ := n.bytes_lead
    rw [Tree.tokens, List.flatten_singleton, text]
    exact .token b tail (Bool.eq_false_iff.mpr (solid_of_lead lead)) spaced
  | list elements => exact .token _ [] rfl (compact_elements elements true spaced)
  | object members => exact .token _ [] rfl (compact_members members true spaced)

theorem compact_elements (elements : List Tree) (first : Bool) {more : List Bytes} {bytes : Bytes}
    (spaced : Spaced more bytes) :
    Spaced (elementTokens first elements ++ more) ((elementTokens first elements).flatten ++ bytes) := by
  cases elements with
  | nil => exact .token _ [] rfl spaced
  | cons t elements =>
    have later := t.compact (compact_elements elements false spaced)
    simp only [elementTokens, List.flatten_append, List.append_assoc]
    cases first with
    | true => exact later
    | false => exact .token _ [] rfl later

theorem compact_members (members : List (Spelling × Tree)) (first : Bool) {more : List Bytes} {bytes : Bytes}
    (spaced : Spaced more bytes) :
    Spaced (memberTokens first members ++ more) ((memberTokens first members).flatten ++ bytes) := by
  cases members with
  | nil => exact .token _ [] rfl spaced
  | cons m members =>
    obtain ⟨name, t⟩ := m
    have later := t.compact (compact_members members false spaced)
    have named : Spaced (name.token :: [0x3A] :: (t.tokens ++ (memberTokens false members ++ more)))
        (name.token ++ 0x3A :: (t.tokens.flatten ++ ((memberTokens false members).flatten ++ bytes))) :=
      .token _ name.tail rfl (.token _ [] rfl later)
    simp only [memberTokens, List.flatten_append, List.flatten_cons, List.append_assoc, List.cons_append]
    cases first with
    | true => exact named
    | false => exact .token _ [] rfl named

end

mutual

def Tree.cost : Tree → Nat
  | .null => 1
  | .bool _ => 1
  | .number _ => 1
  | .text _ => 1
  | .list elements => 1 + elementCost elements
  | .object members => 1 + memberCost members

def elementCost : List Tree → Nat
  | [] => 1
  | t :: elements => 1 + (t.cost + elementCost elements)

def memberCost : List (Spelling × Tree) → Nat
  | [] => 1
  | (_, t) :: members => 1 + (t.cost + memberCost members)

end

section
variable {steps : Nat} {stack outer : List Bracket}

theorem skipOn_scalar {b : UInt8} {tail : Bytes} (list : ¬b = 0x5B) (object : ¬b = 0x7B)
    (passes : ∀ rest, Ends rest → skipScalar b (tail ++ rest) = .ok rest) (closed : Closed more)
    (spaced : Spaced ((b :: tail) :: more) bytes) :
    ∃ rest, skipOn (steps + 1) .value stack bytes = skipOn steps .afterValue stack rest ∧ Spaced more rest := by
  obtain ⟨rest, _, skipped, spaced⟩ := spaced.next_cons _ _
  refine ⟨rest, ?_, spaced⟩
  rw [skipOn, skipped]
  dsimp only
  rw [if_neg list, if_neg object, passes rest (spaced.ends closed)]

theorem skipOn_open (bracket : Bracket) (spaced : Spaced ([if bracket = .list then 0x5B else 0x7B] :: more) bytes) :
    ∃ rest, skipOn (steps + 1) .value stack bytes = skipOn steps .firstItem (bracket :: stack) rest ∧
      Spaced more rest := by
  obtain ⟨rest, _, skipped, spaced⟩ := spaced.next_cons _ _
  refine ⟨rest, ?_, spaced⟩
  rw [skipOn, skipped]
  cases bracket <;> rfl

-- What is awaited within brackets.
def awaitedIn (first : Bool) : Awaited := if first then .firstItem else .afterValue

-- The bytes behind the head of the next item, if there is one.
def itemHead (first : Bool) (bracket : Bracket) (b : UInt8) (rest : Bytes) : Except Stop Bytes :=
  if first then skipItemHead bracket (b :: rest)
  else if b = 0x2C then skipItemHead bracket rest
  else stopPast bracket.commaExpected (b :: rest)

theorem skipOn_within (first : Bool) (bracket : Bracket) {b : UInt8} {rest : Bytes}
    (skipped : skipBlanks bytes = b :: rest) :
    skipOn (steps + 1) (awaitedIn first) (bracket :: outer) bytes =
      if b = bracket.closing then skipOn steps .afterValue outer rest
      else match itemHead first bracket b rest with
        | .ok rest => skipOn steps .value (bracket :: outer) rest
        | .error stop => .error stop := by
  unfold itemHead
  cases first with
  | false =>
    change skipOn (steps + 1) .afterValue (bracket :: outer) bytes = _
    rw [skipOn, skipped]
    · dsimp only
      rw [if_neg (show ¬Awaited.afterValue = .firstItem by decide), if_neg Bool.false_ne_true]
      by_cases comma : b = 0x2C
      · rewrite [if_pos comma, if_pos comma]
        rfl
      · rewrite [if_neg comma, if_neg comma]
        rfl
    · exact fun same => nomatch same
  | true =>
    change skipOn (steps + 1) .firstItem (bracket :: outer) bytes = _
    rw [skipOn, skipped]
    · rfl
    · exact fun same => nomatch same

theorem skipOn_close (first : Bool) (bracket : Bracket) (spaced : Spaced ([bracket.closing] :: more) bytes) :
    ∃ rest, skipOn (steps + 1) (awaitedIn first) (bracket :: outer) bytes = skipOn steps .afterValue outer rest ∧
      Spaced more rest := by
  obtain ⟨rest, _, skipped, spaced⟩ := spaced.next_cons _ _
  exact ⟨rest, by rw [skipOn_within first bracket skipped, if_pos rfl]; rfl, spaced⟩

theorem skipOn_element (first : Bool) (t : Tree)
    (spaced : Spaced (commaTokens first ++ (t.tokens ++ more)) bytes) :
    ∃ rest, skipOn (steps + 1) (awaitedIn first) (.list :: outer) bytes = skipOn steps .value (.list :: outer) rest ∧
      Spaced (t.tokens ++ more) rest := by
  cases first with
  | false =>
    obtain ⟨rest, _, skipped, spaced⟩ := spaced.next_cons _ _
    refine ⟨rest, ?_, spaced⟩
    rw [skipOn_within false .list skipped, if_neg (by decide)]
    rfl
  | true =>
    have value : Spaced (t.tokens ++ more) bytes := spaced
    obtain ⟨b, rest, skipped, leads⟩ := value.lead
    have noEnd : ¬b = Bracket.list.closing := leads.noEnd
    refine ⟨_, ?_, value.skip⟩
    rw [skipOn_within true .list skipped, if_neg noEnd, skipped]
    rfl

theorem skipItemHead_name (name : Spelling) (spaced : Spaced (name.token :: [0x3A] :: more) bytes) :
    ∃ rest, skipItemHead .object bytes = .ok rest ∧ Spaced more rest := by
  obtain ⟨behind, _, skipped, spaced⟩ := spaced.next_cons _ _
  obtain ⟨rest, _, colon, spaced⟩ := spaced.next_cons _ _
  refine ⟨rest, ?_, spaced⟩
  unfold skipItemHead
  dsimp only
  rw [skipped]
  dsimp only
  rw [if_neg (by decide), name.skipString_tail]
  dsimp only [bind, Except.bind]
  rw [colon]
  exact if_pos rfl

theorem skipOn_member (first : Bool) (name : Spelling)
    (spaced : Spaced (commaTokens first ++ (name.token :: [0x3A] :: more)) bytes) :
    ∃ rest, skipOn (steps + 1) (awaitedIn first) (.object :: outer) bytes =
        skipOn steps .value (.object :: outer) rest ∧ Spaced more rest := by
  cases first with
  | false =>
    obtain ⟨behind, _, skipped, spaced⟩ := spaced.next_cons _ _
    obtain ⟨rest, head, spaced⟩ := skipItemHead_name name spaced
    refine ⟨rest, ?_, spaced⟩
    have item : itemHead false .object 0x2C behind = .ok rest := head
    rw [skipOn_within false .object skipped, if_neg (by decide), List.nil_append, item]
  | true =>
    obtain ⟨rest, head, behind⟩ := skipItemHead_name name spaced.skip
    obtain ⟨_, _, skipped, _⟩ := spaced.next_cons 0x22 _
    rw [skipped] at head
    refine ⟨rest, ?_, behind⟩
    have item : itemHead true .object 0x22 _ = .ok rest := head
    rw [skipOn_within true .object skipped, if_neg (by decide), item]

mutual

-- A tree is passed over, and what was awaited behind it is awaited again.
theorem skipOn_tree (t : Tree) (steps : Nat) (stack : List Bracket) {more : List Bytes} {bytes : Bytes}
    (closed : Closed more) (spaced : Spaced (t.tokens ++ more) bytes) :
    ∃ rest, skipOn (t.cost + steps) .value stack bytes = skipOn steps .afterValue stack rest ∧
      Spaced more rest := by
  cases t with
  | null =>
    rw [Tree.cost, Nat.add_comm]
    exact skipOn_scalar (by decide) (by decide) (fun rest _ => rfl) closed spaced
  | bool value =>
    rw [Tree.cost, Nat.add_comm]
    cases value <;> exact skipOn_scalar (by decide) (by decide) (fun rest _ => rfl) closed spaced
  | text s =>
    rw [Tree.cost, Nat.add_comm]
    have passes (rest : Bytes) (_ : Ends rest) : skipScalar 0x22 (s.tail ++ rest) = .ok rest := s.skipString_tail rest
    exact skipOn_scalar (by decide) (by decide) passes closed spaced
  | number n =>
    obtain ⟨b, tail, text, lead⟩ := n.bytes_lead
    rw [Tree.cost, Nat.add_comm]
    have solid : ¬b = 0x5B ∧ ¬b = 0x7B := by
      constructor <;>
      · rintro rfl
        cases lead
    have spaced : Spaced ((b :: tail) :: more) bytes := by
      rw [← text]
      exact spaced
    exact skipOn_scalar solid.1 solid.2 (fun rest ends => n.skipScalar_bytes text ends) closed spaced
  | list elements =>
    obtain ⟨rest, opened, spaced⟩ := skipOn_open .list spaced
    obtain ⟨behind, passed, spaced⟩ := skipOn_elements elements true steps stack spaced
    refine ⟨behind, ?_, spaced⟩
    rw [Tree.cost, Nat.add_comm 1, Nat.add_right_comm, opened]
    exact passed
  | object members =>
    obtain ⟨rest, opened, spaced⟩ := skipOn_open .object spaced
    obtain ⟨behind, passed, spaced⟩ := skipOn_members members true steps stack spaced
    refine ⟨behind, ?_, spaced⟩
    rw [Tree.cost, Nat.add_comm 1, Nat.add_right_comm, opened]
    exact passed

theorem skipOn_elements (elements : List Tree) (first : Bool) (steps : Nat) (outer : List Bracket)
    {more : List Bytes} {bytes : Bytes} (spaced : Spaced (elementTokens first elements ++ more) bytes) :
    ∃ rest, skipOn (elementCost elements + steps) (awaitedIn first) (.list :: outer) bytes =
        skipOn steps .afterValue outer rest ∧ Spaced more rest := by
  cases elements with
  | nil =>
    rw [elementCost, Nat.add_comm]
    exact skipOn_close first .list spaced
  | cons t elements =>
    rw [elementTokens, List.append_assoc, List.append_assoc] at spaced
    obtain ⟨rest, head, spaced⟩ := skipOn_element first t spaced
    obtain ⟨behind, value, spaced⟩ := skipOn_tree t (elementCost elements + steps) (.list :: outer)
      (closed_elements elements more) spaced
    obtain ⟨last, later, spaced⟩ := skipOn_elements elements false steps outer spaced
    refine ⟨last, ?_, spaced⟩
    rw [elementCost, Nat.add_comm 1, Nat.add_right_comm, head, Nat.add_assoc, value]
    exact later

theorem skipOn_members (members : List (Spelling × Tree)) (first : Bool) (steps : Nat) (outer : List Bracket)
    {more : List Bytes} {bytes : Bytes} (spaced : Spaced (memberTokens first members ++ more) bytes) :
    ∃ rest, skipOn (memberCost members + steps) (awaitedIn first) (.object :: outer) bytes =
        skipOn steps .afterValue outer rest ∧ Spaced more rest := by
  cases members with
  | nil =>
    rw [memberCost, Nat.add_comm]
    exact skipOn_close first .object spaced
  | cons m members =>
    obtain ⟨name, t⟩ := m
    rw [memberTokens, List.append_assoc, List.cons_append, List.cons_append, List.append_assoc] at spaced
    obtain ⟨rest, head, spaced⟩ := skipOn_member first name spaced
    obtain ⟨behind, value, spaced⟩ := skipOn_tree t (memberCost members + steps) (.object :: outer)
      (closed_members members more) spaced
    obtain ⟨last, later, spaced⟩ := skipOn_members members false steps outer spaced
    refine ⟨last, ?_, spaced⟩
    rw [memberCost, Nat.add_comm 1, Nat.add_right_comm, head, Nat.add_assoc, value]
    exact later

end

mutual

-- Fewer than twice as many steps as tokens suffice.
theorem Tree.cost_lt (t : Tree) : t.cost < 2 * t.tokens.length := by
  cases t with
  | list elements =>
    have inner := elementCost_le elements true
    simp only [Tree.cost, Tree.tokens, List.length_cons]
    omega
  | object members =>
    have inner := memberCost_le members true
    simp only [Tree.cost, Tree.tokens, List.length_cons]
    omega
  | null => simp [Tree.cost, Tree.tokens]
  | bool value => cases value <;> simp [Tree.cost, Tree.tokens]
  | number n => simp [Tree.cost, Tree.tokens]
  | text s => simp [Tree.cost, Tree.tokens]

theorem elementCost_le (elements : List Tree) (first : Bool) :
    elementCost elements ≤ 2 * (elementTokens first elements).length := by
  cases elements with
  | nil => simp [elementCost, elementTokens]
  | cons t elements =>
    have value := t.cost_lt
    have later := elementCost_le elements false
    simp only [elementCost, elementTokens, List.length_append]
    omega

theorem memberCost_le (members : List (Spelling × Tree)) (first : Bool) :
    memberCost members ≤ 2 * (memberTokens first members).length := by
  cases members with
  | nil => simp [memberCost, memberTokens]
  | cons m members =>
    obtain ⟨name, t⟩ := m
    have value := t.cost_lt
    have later := memberCost_le members false
    simp only [memberCost, memberTokens, List.length_append, List.length_cons]
    omega

end

theorem skipValue_tree (t : Tree) (closed : Closed more) (spaced : Spaced (t.tokens ++ more) bytes) :
    ∃ rest, skipValue bytes = .ok rest ∧ Spaced more rest := by
  have few := spaced.length_le
  have cost := t.cost_lt
  rw [List.length_append] at few
  obtain ⟨steps, enough⟩ : ∃ steps, 2 * bytes.length + 2 = t.cost + (steps + 1) :=
    ⟨2 * bytes.length + 1 - t.cost, by omega⟩
  obtain ⟨rest, skipped, spaced⟩ := skipOn_tree t (steps + 1) [] closed spaced
  refine ⟨rest, ?_, spaced⟩
  unfold skipValue
  rw [enough, skipped]
  rfl

end

end DiskGauge.Json
