import ConstraintSearch.Proofs.Term.Words
import ConstraintSearch.Term.PathCondition
import Mathlib.Data.List.Nodup

/-!
# Unique readability

A term can be recovered from its text, and a path condition from the texts of its constraints. A
text is read from left to right: a word ends at the first blank or parenthesis, and a term at the
blank or the closing parenthesis behind it, so texts that begin with a term each, and are the same,
begin with the same term.

Operators of different kinds share their symbols, so the text of a compound term says nothing of its
kind until its leaves are read. Terms are therefore compared in two steps: the text determines the
*tree*, in which operators have no kinds, and the kinds of a tree come from its constants and
literals upward.
-/

namespace ConstraintSearch

/-! ### Trees -/

/-- The operators that stand behind an opening parenthesis, at whatever kinds. -/
inductive TermOp
  | not
  | logic (op : BooleanOp)
  | compare (op : Comparison)
  | arith (op : ArithmeticOp)
  | bitwise (op : BooleanOp)
  | shift (op : ShiftOp)
  | toInt
  | toDouble
  | apply (f : UnaryFunction)
  | apply₂ (f : BinaryFunction)
  deriving DecidableEq

namespace TermOp

/-- How the operator is written. -/
def name : TermOp → String
  | .not => "not"
  | .logic op => op.name
  | .compare op => op.symbol
  | .arith op => op.symbol
  | .bitwise op => op.symbol
  | .shift op => op.symbol
  | .toInt => "as-int"
  | .toDouble => "as-double"
  | .apply f => f.name
  | .apply₂ f => f.name

/-- All operators. -/
def all : List TermOp :=
  [.not, .logic .and, .logic .or, .logic .xor, .compare .eq, .compare .ne, .compare .ge,
    .compare .gt, .compare .le, .compare .lt, .arith .add, .arith .sub, .arith .mul, .arith .div,
    .arith .rem, .bitwise .and, .bitwise .or, .bitwise .xor, .shift .left, .shift .right,
    .shift .rightZero, .toInt, .toDouble, .apply .sin, .apply .cos, .apply .tan, .apply .asin,
    .apply .acos, .apply .atan, .apply .exp, .apply .log, .apply .log10, .apply .sqrt,
    .apply .round, .apply₂ .atan2, .apply₂ .pow]

theorem mem_all (op : TermOp) : op ∈ all := by
  rcases op with - | op | op | op | op | op | - | - | f | f
  case logic | compare | arith | bitwise | shift => cases op <;> decide
  case apply | apply₂ => cases f <;> decide
  all_goals decide

theorem isPlain_of_mem_name (op : TermOp) : ∀ c ∈ op.name.toList, Text.isPlain c := by
  have hall : ∀ op ∈ all, op.name.toList.all Text.isPlain := by decide
  exact List.all_eq_true.1 (hall op op.mem_all)

theorem name_injective : Function.Injective name := by
  have hnodup : (all.map name).Nodup := by decide
  exact fun a b ↦ List.inj_on_of_nodup_map hnodup a.mem_all b.mem_all

end TermOp

/-- A term without the kinds of its operators. -/
inductive TermTree
  | const (v : Scalar)
  | lit (k : Kind) (id : Nat)
  | node (op : TermOp) (args : List TermTree)

namespace TermTree

mutual

/-- How the tree is written. -/
def write : TermTree → List Char
  | .const v => (constantText v.kind v.value).toList
  | .lit k id => k.literalName.toList ++ '(' :: (Text.digits id ++ [')'])
  | .node op args => '(' :: (op.name.toList ++ writeArgs args)

/-- The operands of an operator, and the parenthesis behind them. -/
def writeArgs : List TermTree → List Char
  | [] => [')']
  | t :: ts => ' ' :: (t.write ++ writeArgs ts)

end

/-- What may stand behind a tree: nothing, or what begins with a blank or a closing parenthesis. -/
def MayFollow (r : List Char) : Prop :=
  ∀ c ∈ r.head?, c = ' ' ∨ c = ')'

theorem mayFollow_nil : MayFollow [] := by
  simp [MayFollow]

theorem mayFollow_blank (r : List Char) : MayFollow (' ' :: r) := by
  simp [MayFollow]

theorem mayFollow_writeArgs (ts : List TermTree) (r : List Char) :
    MayFollow (writeArgs ts ++ r) := by
  cases ts <;> simp [MayFollow, writeArgs]

theorem not_mayFollow_open (r : List Char) : ¬ MayFollow ('(' :: r) := by
  simp [MayFollow]

/-- A word ends where something follows it. -/
theorem MayFollow.isPlain_head {r : List Char} (hr : MayFollow r) :
    ∀ c ∈ r.head?, Text.isPlain c = false := by
  intro c hc
  rcases hr c hc with rfl | rfl <;> rfl

theorem write_ne_nil (t : TermTree) : t.write ≠ [] := by
  cases t with
  | const v => exact constantText_toList_ne_nil v.kind v.value
  | lit k id => simp [write]
  | node op args => exact List.cons_ne_nil _ _

/-- The word with which a tree begins; it is empty if the tree begins with a parenthesis. -/
def opening : TermTree → List Char
  | .const v => (constantText v.kind v.value).toList
  | .lit k _ => k.literalName.toList
  | .node _ _ => []

/-- What stands behind the opening word. -/
def afterOpening : TermTree → List Char
  | .const _ => []
  | .lit _ id => '(' :: (Text.digits id ++ [')'])
  | t => t.write

theorem opening_append_afterOpening (t : TermTree) : t.opening ++ t.afterOpening = t.write := by
  cases t with
  | const v => exact List.append_nil _
  | lit k id => rfl
  | node op args => rfl

theorem isPlain_of_mem_opening (t : TermTree) : ∀ c ∈ t.opening, Text.isPlain c := by
  cases t with
  | const v => exact isPlain_of_mem_constantText v.kind v.value
  | lit k id => exact k.isPlain_of_mem_literalName
  | node op args => exact List.forall_mem_nil _

theorem isPlain_head_afterOpening (t : TermTree) {r : List Char} (hr : MayFollow r) :
    ∀ c ∈ (t.afterOpening ++ r).head?, Text.isPlain c = false := by
  cases t with
  | const v => exact hr.isPlain_head
  | lit k id => simp [afterOpening, Text.isPlain]
  | node op args => simp [afterOpening, write, Text.isPlain]

/-- Texts that begin with a tree each, and are the same, begin with the same word. -/
theorem opening_eq_of_append_eq {p q : TermTree} {r s : List Char} (hr : MayFollow r)
    (hs : MayFollow s) (h : p.write ++ r = q.write ++ s) :
    p.opening = q.opening ∧ p.afterOpening ++ r = q.afterOpening ++ s := by
  rw [← p.opening_append_afterOpening, ← q.opening_append_afterOpening, List.append_assoc,
    List.append_assoc] at h
  exact Text.append_inj_of_isPlain p.isPlain_of_mem_opening q.isPlain_of_mem_opening
    (p.isPlain_head_afterOpening hr) (q.isPlain_head_afterOpening hs) h

mutual

/-- Texts that begin with a tree each, and are the same, begin with the same tree. -/
theorem write_append_inj {p q : TermTree} {r s : List Char} (hr : MayFollow r) (hs : MayFollow s)
    (h : p.write ++ r = q.write ++ s) : p = q ∧ r = s := by
  obtain ⟨hopen, hafter⟩ := opening_eq_of_append_eq hr hs h
  match p, q with
  | .const v, .const w =>
    exact ⟨congrArg const (scalar_eq_of_constantText_eq (String.toList_inj.1 hopen)), hafter⟩
  | .lit k m, .lit k' n =>
    have hkind : k = k' := Kind.literalName_injective (String.toList_inj.1 hopen)
    have hid : Text.digits m ++ ')' :: r = Text.digits n ++ ')' :: s := by
      simpa [afterOpening] using hafter
    obtain ⟨hid, hrest⟩ := Text.append_inj_of_isPlain Text.isPlain_of_mem_digits
      Text.isPlain_of_mem_digits (by simp [Text.isPlain]) (by simp [Text.isPlain]) hid
    rw [hkind, Text.digits_injective hid]
    exact ⟨rfl, List.tail_eq_of_cons_eq hrest⟩
  | .node op ts, .node op' us =>
    have hafter : op.name.toList ++ (writeArgs ts ++ r) =
        op'.name.toList ++ (writeArgs us ++ s) := by
      simpa [afterOpening, write] using hafter
    obtain ⟨hname, hargs⟩ := Text.append_inj_of_isPlain op.isPlain_of_mem_name
      op'.isPlain_of_mem_name (mayFollow_writeArgs ts r).isPlain_head
      (mayFollow_writeArgs us s).isPlain_head hafter
    obtain ⟨rfl, hrest⟩ := writeArgs_append_inj hargs
    rw [TermOp.name_injective (String.toList_inj.1 hname)]
    exact ⟨rfl, hrest⟩
  -- Behind the first word of what is no constant a parenthesis opens.
  | .const _, .lit _ _ | .const _, .node _ _ =>
    exact absurd ((show r = '(' :: _ from hafter) ▸ hr) (not_mayFollow_open _)
  | .lit _ _, .const _ | .node _ _, .const _ =>
    exact absurd ((show s = '(' :: _ from hafter.symm) ▸ hs) (not_mayFollow_open _)
  | .lit k _, .node _ _ => exact absurd hopen k.literalName_toList_ne_nil
  | .node _ _, .lit k _ => exact absurd hopen.symm k.literalName_toList_ne_nil

/-- The parenthesis behind the operands tells how many there are. -/
theorem writeArgs_append_inj {ts us : List TermTree} {r s : List Char}
    (h : writeArgs ts ++ r = writeArgs us ++ s) : ts = us ∧ r = s := by
  match ts, us with
  | [], [] => exact ⟨rfl, List.tail_eq_of_cons_eq h⟩
  | [], u :: us => exact absurd (List.head_eq_of_cons_eq h) (by decide)
  | t :: ts, [] => exact absurd (List.head_eq_of_cons_eq h) (by decide)
  | t :: ts, u :: us =>
    have h : t.write ++ (writeArgs ts ++ r) = u.write ++ (writeArgs us ++ s) := by
      simpa [writeArgs] using h
    obtain ⟨rfl, hargs⟩ :=
      write_append_inj (mayFollow_writeArgs ts r) (mayFollow_writeArgs us s) h
    obtain ⟨rfl, hrest⟩ := writeArgs_append_inj hargs
    exact ⟨rfl, hrest⟩

end

theorem node_one_inj {op op' : TermOp} {t u : TermTree} (h : node op [t] = node op' [u]) :
    op = op' ∧ t = u := by
  simpa using h

theorem node_two_inj {op op' : TermOp} {l r l' r' : TermTree}
    (h : node op [l, r] = node op' [l', r']) : op = op' ∧ l = l' ∧ r = r' := by
  simpa using h

end TermTree

/-! ### Terms -/

namespace Term

/-- The tree of a term. -/
def tree : {k : Kind} → Term k → TermTree
  | k, .const v => .const ⟨k, v⟩
  | k, .lit id => .lit k id
  | _, .not t => .node .not [t.tree]
  | _, .logic op l r => .node (.logic op) [l.tree, r.tree]
  | _, .compare op l r => .node (.compare op) [l.tree, r.tree]
  | _, .arith op l r => .node (.arith op) [l.tree, r.tree]
  | _, .bitwise op l r => .node (.bitwise op) [l.tree, r.tree]
  | _, .shift op _ l r => .node (.shift op) [l.tree, r.tree]
  | _, .toInt t => .node .toInt [t.tree]
  | _, .toDouble t => .node .toDouble [t.tree]
  | _, .apply f t => .node (.apply f) [t.tree]
  | _, .apply₂ f l r => .node (.apply₂ f) [l.tree, r.tree]

/-- The text of a term is that of its tree. -/
theorem toList_text {k : Kind} (t : Term k) : t.text.toList = t.tree.write := by
  have hone (op : TermOp) {text : String} {t : TermTree} (ht : text.toList = t.write) :
      ("(" ++ op.name ++ " " ++ text ++ ")").toList = (TermTree.node op [t]).write := by
    simp [TermTree.write, TermTree.writeArgs, ht]
  have htwo (op : TermOp) {left right : String} {l r : TermTree} (hl : left.toList = l.write)
      (hr : right.toList = r.write) :
      ("(" ++ op.name ++ " " ++ left ++ " " ++ right ++ ")").toList =
        (TermTree.node op [l, r]).write := by
    simp [TermTree.write, TermTree.writeArgs, hl, hr]
  induction t with
  | const v => rfl
  | @lit k id => exact literalText_toList k id
  | not t ih => exact hone .not ih
  | logic op l r ihl ihr => exact htwo (.logic op) ihl ihr
  | compare op l r ihl ihr => exact htwo (.compare op) ihl ihr
  | arith op l r ihl ihr => exact htwo (.arith op) ihl ihr
  | bitwise op l r ihl ihr => exact htwo (.bitwise op) ihl ihr
  | shift op _ l r ihl ihr => exact htwo (.shift op) ihl ihr
  | toInt t ih => exact hone .toInt ih
  | toDouble t ih => exact hone .toDouble ih
  | apply f t ih => exact hone (.apply f) ih
  | apply₂ f l r ihl ihr => exact htwo (.apply₂ f) ihl ihr

/-- A term is determined by its tree, and so is its kind: constants and literals show theirs, and an
operator acts at the kind of its operands. -/
theorem eq_of_tree_eq {k k' : Kind} {t : Term k} {u : Term k'} (h : t.tree = u.tree) :
    (⟨k, t⟩ : KindedTerm) = ⟨k', u⟩ := by
  induction t generalizing k' with
  | const v =>
    cases u with
    | const v' => cases h; rfl
    | _ => nomatch h
  | lit id =>
    cases u with
    | lit id' => cases h; rfl
    | _ => nomatch h
  | not t ih =>
    cases u with
    | not u =>
      obtain ⟨⟨⟩, ht⟩ := TermTree.node_one_inj h
      cases ih ht
      rfl
    | _ => nomatch h
  | logic op l r ihl ihr =>
    cases u with
    | logic op' l' r' =>
      obtain ⟨⟨⟩, hl, hr⟩ := TermTree.node_two_inj h
      cases ihl hl
      cases ihr hr
      rfl
    | _ => nomatch h
  | compare op l r ihl ihr =>
    cases u with
    | compare op' l' r' =>
      obtain ⟨⟨⟩, hl, hr⟩ := TermTree.node_two_inj h
      cases ihl hl
      cases ihr hr
      rfl
    | _ => nomatch h
  | arith op l r ihl ihr =>
    cases u with
    | arith op' l' r' =>
      obtain ⟨⟨⟩, hl, hr⟩ := TermTree.node_two_inj h
      cases ihl hl
      cases ihr hr
      rfl
    | _ => nomatch h
  | bitwise op l r ihl ihr =>
    cases u with
    | bitwise op' l' r' =>
      obtain ⟨⟨⟩, hl, hr⟩ := TermTree.node_two_inj h
      cases ihl hl
      cases ihr hr
      rfl
    | _ => nomatch h
  | shift op hop l r ihl ihr =>
    cases u with
    | shift op' hop' l' r' =>
      obtain ⟨⟨⟩, hl, hr⟩ := TermTree.node_two_inj h
      cases ihl hl
      cases ihr hr
      rfl
    | _ => nomatch h
  | toInt t ih =>
    cases u with
    | toInt u =>
      obtain ⟨⟨⟩, ht⟩ := TermTree.node_one_inj h
      cases ih ht
      rfl
    | _ => nomatch h
  | toDouble t ih =>
    cases u with
    | toDouble u =>
      obtain ⟨⟨⟩, ht⟩ := TermTree.node_one_inj h
      cases ih ht
      rfl
    | _ => nomatch h
  | apply f t ih =>
    cases u with
    | apply g u =>
      obtain ⟨⟨⟩, ht⟩ := TermTree.node_one_inj h
      cases ih ht
      rfl
    | _ => nomatch h
  | apply₂ f l r ihl ihr =>
    cases u with
    | apply₂ g l' r' =>
      obtain ⟨⟨⟩, hl, hr⟩ := TermTree.node_two_inj h
      cases ihl hl
      cases ihr hr
      rfl
    | _ => nomatch h

/-- Two texts that begin with the text of a term each, and are the same, begin with the same
term. -/
theorem text_append_inj {k k' : Kind} {t : Term k} {u : Term k'} {r s : List Char}
    (hr : TermTree.MayFollow r) (hs : TermTree.MayFollow s)
    (h : t.text.toList ++ r = u.text.toList ++ s) :
    (⟨k, t⟩ : KindedTerm) = ⟨k', u⟩ ∧ r = s := by
  rw [t.toList_text, u.toList_text] at h
  obtain ⟨htree, hrest⟩ := TermTree.write_append_inj hr hs h
  exact ⟨eq_of_tree_eq htree, hrest⟩

end Term

theorem KindedTerm.eq_of_text_eq {t u : KindedTerm} (h : t.term.text = u.term.text) : t = u :=
  (Term.text_append_inj TermTree.mayFollow_nil TermTree.mayFollow_nil
    (by rw [List.append_nil, List.append_nil, h])).1

/-! ### Path conditions -/

namespace PathCondition

/-- The text of the constraints behind the first one. -/
def textAfter : List (Term .bool) → List Char
  | [] => []
  | c :: cs => ' ' :: ';' :: ' ' :: (c.text.toList ++ textAfter cs)

theorem toList_text_cons (c : Term .bool) (cs : List (Term .bool)) :
    (⟨c :: cs⟩ : PathCondition).text.toList = c.text.toList ++ textAfter cs := by
  induction cs generalizing c with
  | nil => simp [text, textAfter]
  | cons d cs ih =>
    have ih := ih d
    simp only [text, String.toList_intercalate, List.map_cons] at ih ⊢
    rw [List.intercalate_cons_cons, ih, List.append_assoc]
    rfl

theorem mayFollow_textAfter (cs : List (Term .bool)) : TermTree.MayFollow (textAfter cs) := by
  cases cs with
  | nil => exact TermTree.mayFollow_nil
  | cons c cs => exact TermTree.mayFollow_blank _

/-- Texts that begin with a constraint each begin with the same one, and go on in the same way. -/
theorem constraint_eq_of_text_eq {c d : Term .bool} {cs ds : List (Term .bool)}
    (h : c.text.toList ++ textAfter cs = d.text.toList ++ textAfter ds) :
    c = d ∧ textAfter cs = textAfter ds := by
  obtain ⟨hterm, hafter⟩ :=
    Term.text_append_inj (mayFollow_textAfter cs) (mayFollow_textAfter ds) h
  cases hterm
  exact ⟨rfl, hafter⟩

theorem textAfter_injective : Function.Injective textAfter := by
  intro cs
  induction cs with
  | nil =>
    intro ds h
    cases ds with
    | nil => rfl
    | cons d ds => nomatch h
  | cons c cs ih =>
    intro ds h
    cases ds with
    | nil => nomatch h
    | cons d ds =>
      have h : c.text.toList ++ textAfter cs = d.text.toList ++ textAfter ds := by
        simpa [textAfter] using h
      obtain ⟨rfl, hafter⟩ := constraint_eq_of_text_eq h
      rw [ih hafter]

theorem text_cons_ne_text_nil (c : Term .bool) (cs : List (Term .bool)) :
    (⟨c :: cs⟩ : PathCondition).text ≠ (⟨[]⟩ : PathCondition).text := by
  intro h
  have hempty : c.text.toList ++ textAfter cs = [] := by
    rw [← toList_text_cons, h]
    rfl
  rw [c.toList_text] at hempty
  exact c.tree.write_ne_nil (List.append_eq_nil_iff.1 hempty).1

theorem eq_of_text_eq {p q : PathCondition} (h : p.text = q.text) : p = q := by
  match p, q with
  | ⟨[]⟩, ⟨[]⟩ => rfl
  | ⟨[]⟩, ⟨d :: ds⟩ => exact absurd h.symm (text_cons_ne_text_nil d ds)
  | ⟨c :: cs⟩, ⟨[]⟩ => exact absurd h (text_cons_ne_text_nil c cs)
  | ⟨c :: cs⟩, ⟨d :: ds⟩ =>
    have h := congrArg String.toList h
    rw [toList_text_cons, toList_text_cons] at h
    obtain ⟨rfl, hafter⟩ := constraint_eq_of_text_eq h
    rw [textAfter_injective hafter]

end PathCondition

/-- Terms of whatever kinds have the same text only if they are the same term of one kind, and path
conditions only if they have the same constraints in the same order. -/
theorem text_eq_text_iff :
    (∀ t u : KindedTerm, t.term.text = u.term.text ↔ t = u) ∧
      ∀ p q : PathCondition, p.text = q.text ↔ p.constraints = q.constraints := by
  refine ⟨fun t u ↦ ⟨KindedTerm.eq_of_text_eq, ?_⟩, fun p q ↦ ⟨fun h ↦ ?_, fun h ↦ ?_⟩⟩
  · rintro rfl
    rfl
  · rw [PathCondition.eq_of_text_eq h]
  · rw [PathCondition.text, PathCondition.text, h]

end ConstraintSearch
