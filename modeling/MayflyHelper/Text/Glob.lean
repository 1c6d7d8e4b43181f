import MayflyHelper.Text.Fields

/-! File globs: `*` and `?` do not cross a slash, `[...]` is a class, and every
other character stands for itself. -/
namespace Text.Glob

inductive Item
  | star
  | one
  | group (negated : Bool) (ranges : List (Char × Char))
  | char (c : Char)
  deriving DecidableEq, Repr

/-- The members of a class: single characters and ranges. -/
def ranges : Text → List (Char × Char)
  | low :: '-' :: high :: rest => (low, high) :: ranges rest
  | c :: rest => (c, c) :: ranges rest
  | [] => []

/-- What stands after an opening bracket: whether the class is negated, its
body, and the text after it. A closing bracket that comes first is a member. -/
def bracket (t : Text) : Option (Bool × Text × Text) :=
  let negated := startsWith t '!' || startsWith t '^'
  match if negated then t.tail else t with
  | [] => none
  | c :: rest => (splitOnce (· == ']') rest).map (fun cut => (negated, c :: cut.1, cut.2))

def isSpecial (c : Char) : Bool := c == '*' || c == '?' || c == '['

/-- An opening bracket that is never closed stands for itself. -/
def itemsUpTo : Nat → Text → List Item
  | 0, _ => []
  | _ + 1, [] => []
  | fuel + 1, c :: rest =>
      if c = '*' then .star :: itemsUpTo fuel rest
      else if c = '?' then .one :: itemsUpTo fuel rest
      else if c = '[' then
        match bracket rest with
        | some (negated, body, after) => .group negated (ranges body) :: itemsUpTo fuel after
        | none => .char c :: itemsUpTo fuel rest
      else .char c :: itemsUpTo fuel rest

def items (pattern : Text) : List Item := itemsUpTo pattern.length pattern

/-- The suffixes left after a run that does not cross a slash. -/
def afterRun : Text → List Text
  | [] => [[]]
  | c :: rest => (c :: rest) :: if c = '/' then [] else afterRun rest

def acceptsItems : List Item → Text → Bool
  | [], t => t.isEmpty
  | .star :: rest, t => (afterRun t).any (acceptsItems rest)
  | .one :: _, [] => false
  | .one :: rest, c :: t => c != '/' && acceptsItems rest t
  | .group _ _ :: _, [] => false
  | .group negated members :: rest, c :: t =>
      c != '/' && (members.any (fun range => range.1 ≤ c && c ≤ range.2) != negated) &&
        acceptsItems rest t
  | .char _ :: _, [] => false
  | .char expected :: rest, c :: t => c == expected && acceptsItems rest t

/-- Whether the path `t` is one that `pattern` stands for. -/
def accepts (pattern t : Text) : Bool := acceptsItems (items pattern) t

variable {plain : Text}

/-- Plain characters stand for themselves. -/
theorem items_append (h : ∀ c ∈ plain, isSpecial c = false) (pattern : Text) :
    items (plain ++ pattern) = plain.map Item.char ++ items pattern := by
  induction plain with
  | nil => rfl
  | cons c plain ih =>
      have hc := h c List.mem_cons_self
      simp only [isSpecial, Bool.or_eq_false_iff, beq_eq_false_iff_ne] at hc
      have hRest := ih fun d hd => h d (List.mem_cons_of_mem _ hd)
      rw [items, List.cons_append, List.length_cons, itemsUpTo, if_neg hc.1.1,
        if_neg hc.1.2, if_neg hc.2]
      exact congrArg (Item.char c :: ·) hRest

theorem acceptsItems_append (plain : Text) (rest : List Item) (t : Text) :
    acceptsItems (plain.map Item.char ++ rest) (plain ++ t) = acceptsItems rest t := by
  induction plain with
  | nil => rfl
  | cons c plain ih =>
      simp only [List.map_cons, List.cons_append, acceptsItems, beq_self_eq_true, Bool.true_and]
      exact ih

/-- A common plain start is immaterial. -/
theorem accepts_append (h : ∀ c ∈ plain, isSpecial c = false) (pattern t : Text) :
    accepts (plain ++ pattern) (plain ++ t) = accepts pattern t := by
  rw [accepts, items_append h, acceptsItems_append]
  rfl

example :
    accepts "/etc/ssh/*.d/9[!a-f]-m?y*.conf".toList "/etc/ssh/sshd_config.d/90-mayfly.conf".toList =
      true := by
  decide

example : accepts "/etc/*.conf".toList "/etc/ssh/90-mayfly.conf".toList = false := by decide

end Text.Glob
