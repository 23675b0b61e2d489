import ConstraintSearch.Proofs.Search.Configuration
import ConstraintSearch.Proofs.Term.Evaluation
import ConstraintSearch.Proofs.Text.Numeral
import ConstraintSearch.Search.Properties

/-!
# Reading configurations

The fields of a configuration are read one after another, each from the value of its own key, and
none of them sees what was read before (`Properties.configuration_eq`). So properties are refused
for the first value, in the order of reading, that is not acceptable by itself
(`Properties.error?_configuration`), and what a configuration says of a field depends on no other
key. Only the path of the interval solver is looked at twice: when the interval solver is read there
has to be one, and when the configuration is validated it must not be empty.
-/

namespace ConstraintSearch

/-! ### The error of a sequence -/

section

variable {ε α β : Type} {x : Except ε α}

/-- The error, if there is one. -/
def error? : Except ε α → Option ε
  | .ok _ => none
  | .error e => some e

theorem error?_eq_some_iff {e : ε} : error? x = some e ↔ x = .error e := by
  cases x <;> simp [error?]

/-- If the second step fails in the same way whatever the first one gives, a sequence fails in the
way of the first step that fails. -/
theorem error?_bind {f : α → Except ε β} {r : Option ε} (h : ∀ a, error? (f a) = r) :
    error? (x >>= f) = (error? x).or r := by
  cases x with
  | error e => rfl
  | ok a => exact h a

theorem findSome?_cons_eq_or (f : α → Option β) (a : α) (as : List α) :
    (a :: as).findSome? f = (f a).or (as.findSome? f) := by
  rw [List.findSome?_cons]
  cases f a <;> rfl

end

/-! ### Fields and their keys -/

namespace Properties

variable {props : Properties} {α : Type}

/-- What a field of a configuration is: it is read from the value of a key, or it is the default if
the key has no value. -/
def field (props : Properties) (key : String) (default : α)
    (read : String → Except ConfigurationError α) : Except ConfigurationError α :=
  match props.get? key with
  | some v => read v
  | none => .ok default

/-- The path of the interval solver. -/
def path? (props : Properties) : Option String :=
  props.get? "coral.interval_solver.path"

/-- The interval solver of a name, at the path that the properties give. -/
def readIntervalSolver (props : Properties) (v : String) :
    Except ConfigurationError IntervalSolver :=
  IntervalSolver.ofName (String.ofList (trimmed v)) props.path?

theorem error?_field (key : String) (default : α) (read : String → Except ConfigurationError α) :
    error? (props.field key default read) = (props.get? key).bind fun v ↦ error? (read v) := by
  unfold field
  cases props.get? key <;> rfl

/-- To change a configuration by the value of a key is to read a field and to set it. -/
theorem applyKey_bind {key : String} {c : Configuration}
    {read : String → Except ConfigurationError α}
    {f : Configuration → Except ConfigurationError Configuration} (default : α)
    (set : α → Configuration) (hset : set default = c) :
    (props.applyKey key c fun v ↦ read v >>= fun x ↦ pure (set x)) >>= f =
      props.field key default read >>= fun x ↦ f (set x) := by
  unfold applyKey field
  cases props.get? key with
  | none =>
    rw [← hset]
    rfl
  | some v => exact bind_assoc (read v) _ f

/-- A configuration is put together from its fields, and then it is validated. -/
theorem configuration_eq (props : Properties) :
    props.configuration = do
      let seed ← props.field "coral.seed" 464655 (readInt "coral.seed")
      let iterations ← props.field "coral.iterations" 0 (readInt "coral.iterations")
      let strategy ← props.field "coral.solver" .particleSwarm (readStrategy "coral.solver")
      let optimize ← props.field "coral.optimize" true (readBool "coral.optimize")
      let solver ← props.field intervalSolverKey .none props.readIntervalSolver
      let c : Configuration := ⟨Word.wrap .w64 seed, budget? iterations, strategy, optimize, solver⟩
      c.validate
      return c := by
  unfold configuration
  refine (applyKey_bind 464655 (fun i ↦ { seed := Word.wrap .w64 i }) rfl).trans
    (bind_congr fun seed ↦ ?_)
  refine (applyKey_bind 0 (fun i ↦ ⟨_, budget? i, _, _, _⟩) rfl).trans
    (bind_congr fun iterations ↦ ?_)
  refine (applyKey_bind .particleSwarm (fun k ↦ ⟨_, _, k, _, _⟩) rfl).trans
    (bind_congr fun strategy ↦ ?_)
  refine (applyKey_bind true (fun b ↦ ⟨_, _, _, b, _⟩) rfl).trans
    (bind_congr fun optimize ↦ ?_)
  exact applyKey_bind .none (fun t ↦ ⟨_, _, _, _, t⟩) rfl

/-! ### Unacceptable values -/

/-- The 64-bit integer that a text stands for. -/
def integer (v : String) : Except Text.NumeralError Int :=
  Text.readInt (Word.least .w64) (Word.greatest .w64) (trimmed v)

/-- The entries that a configuration is read from. -/
inductive Entry
  | seed
  | iterations
  | strategy
  | optimize
  | intervalSolver

namespace Entry

/-- The entries in the order in which they are read. -/
def all : List Entry :=
  [.seed, .iterations, .strategy, .optimize, .intervalSolver]

theorem mem_all (e : Entry) : e ∈ all := by
  cases e <;> simp [all]

/-- The key of the entry. -/
def key : Entry → String
  | .seed => "coral.seed"
  | .iterations => "coral.iterations"
  | .strategy => "coral.solver"
  | .optimize => "coral.optimize"
  | .intervalSolver => intervalSolverKey

/-- What is wrong with a value of the entry, if it is not acceptable. An interval solver has to be
known by its name, and all but the absent one need a path that is not empty. -/
def complaint? (path : Option String) (v : String) (e : Entry) : Option ConfigurationError :=
  let name := String.ofList (trimmed v)
  match e with
  | .seed | .iterations =>
    (error? (integer v)).map fun err ↦ .invalidProperty e.key v err.message
  | .strategy =>
    if Text.keyword name ∈ SearchStrategy.all.map SearchStrategy.name then none
    else some (.invalidProperty e.key v (SearchStrategy.unknownMessage name))
  | .optimize =>
    let lowered := Text.lowercase v
    if String.ofList (trimmed lowered) ∈ ["true", "false"] then none
    else some (.invalidProperty e.key lowered
      "provided string was not \x60true\x60 or \x60false\x60")
  | .intervalSolver =>
    let upper := Text.keyword name
    if upper ∉ ["NONE", "REALPAVER", "ICOS"] then
      some (.invalidProperty e.key name "expected none, realpaver or icos")
    else if upper ≠ "NONE" ∧ path.getD "" = "" then some (.missingIntervalSolverPath upper)
    else none

end Entry

variable {props' : Properties} {c c' : Configuration}

/-- What is wrong with the value of an entry, if it has one. -/
def complaint? (props : Properties) (e : Entry) : Option ConfigurationError :=
  (props.get? e.key).bind fun v ↦ e.complaint? props.path? v

theorem error?_readInt (key v : String) :
    error? (readInt key v) =
      (error? (integer v)).map fun e ↦ .invalidProperty key v e.message := by
  unfold readInt integer
  split
  · next h =>
    rw [h]
    rfl
  · next h =>
    rw [h]
    rfl

theorem error?_readStrategy (path : Option String) (v : String) :
    error? (readStrategy "coral.solver" v) = Entry.strategy.complaint? path v := by
  unfold readStrategy
  dsimp only [Entry.complaint?]
  split
  · next k hk =>
    rw [if_pos]
    · rfl
    · rw [SearchStrategy.read?_eq_some_iff.1 hk]
      exact List.mem_map_of_mem k.mem_all
  · next hnone =>
    rw [if_neg]
    · rfl
    · intro hmem
      obtain ⟨k, -, hk⟩ := List.mem_map.1 hmem
      rw [SearchStrategy.read?_eq_some_iff.2 hk.symm] at hnone
      cases hnone

theorem error?_readBool (path : Option String) (v : String) :
    error? (readBool "coral.optimize" v) = Entry.optimize.complaint? path v := by
  unfold readBool
  dsimp only [Entry.complaint?]
  split
  · next h =>
    rw [h]
    rfl
  · next h =>
    rw [h]
    rfl
  · next h₁ h₂ =>
    rw [if_neg (by simpa using ⟨h₁, h₂⟩)]
    rfl

section

variable {f : IntervalSolver → Except ConfigurationError α}

/-- An interval solver is read, and then its path is checked. -/
theorem error?_readIntervalSolver
    (hf : ∀ t, error? (f t) =
      if t.path? = some "" then some (.missingIntervalSolverPath t.name) else none) (v : String) :
    error? (props.readIntervalSolver v >>= f) =
      Entry.intervalSolver.complaint? props.path? v := by
  unfold readIntervalSolver IntervalSolver.ofName
  dsimp only [Entry.complaint?]
  split
  case h_1 _ h =>
    rw [h]
    exact hf _
  case h_2 _ h | h_3 _ h =>
    rw [h, if_neg (by decide)]
    cases props.path? with
    | none => rfl
    | some p => exact (hf _).trans (by simp [IntervalSolver.path?, IntervalSolver.name])
  case h_4 _ h₁ h₂ h₃ =>
    rw [if_pos (by simpa using ⟨h₁, h₂, h₃⟩)]
    rfl

theorem error?_intervalSolver
    (hf : ∀ t, error? (f t) =
      if t.path? = some "" then some (.missingIntervalSolverPath t.name) else none) :
    error? (props.field intervalSolverKey .none props.readIntervalSolver >>= f) =
      props.complaint? .intervalSolver := by
  rw [complaint?, Entry.key, field]
  cases props.get? intervalSolverKey with
  | none => exact hf .none
  | some v =>
    rw [Option.bind_some]
    exact error?_readIntervalSolver hf v

end

/-! ### Refused and accepted properties -/

theorem budget?_ne_zero (i : Int) : budget? i ≠ some 0 := by
  unfold budget?
  split
  · next h =>
    intro hzero
    have := Option.some.inj hzero
    omega
  · nofun

theorem error?_field_bind {β : Type} {key : String} {default : α}
    {read : String → Except ConfigurationError α} {f : α → Except ConfigurationError β}
    {complaint? : String → Option ConfigurationError} {r : Option ConfigurationError}
    (hread : ∀ v, error? (read v) = complaint? v) (hf : ∀ a, error? (f a) = r) :
    error? (props.field key default read >>= f) = ((props.get? key).bind complaint?).or r := by
  rw [error?_bind hf, error?_field, funext hread]

/-- Properties are refused because of the first entry, in the order of reading, whose value is not
acceptable. -/
theorem error?_configuration (props : Properties) :
    error? props.configuration = Entry.all.findSome? props.complaint? := by
  rw [configuration_eq]
  simp only [Entry.all, findSome?_cons_eq_or, List.findSome?_nil, Option.or_none]
  refine error?_field_bind (error?_readInt "coral.seed") fun seed ↦ ?_
  refine error?_field_bind (error?_readInt "coral.iterations") fun iterations ↦ ?_
  refine error?_field_bind (error?_readStrategy props.path?) fun strategy ↦ ?_
  refine error?_field_bind (error?_readBool props.path?) fun optimize ↦ ?_
  refine error?_intervalSolver fun solver ↦ ?_
  -- The iteration budget is never zero, so only the path is left for the validation.
  dsimp only [Configuration.validate]
  rw [if_neg (budget?_ne_zero iterations)]
  split <;> rfl

theorem configuration_eq_error_iff {err : ConfigurationError} :
    props.configuration = .error err ↔ Entry.all.findSome? props.complaint? = some err := by
  rw [← error?_eq_some_iff, error?_configuration]

/-- Properties are refused if any value is not acceptable. -/
theorem exists_configuration_eq_error_iff :
    (∃ err, props.configuration = .error err) ↔
      ∃ (e : Entry) (v : String) (err : ConfigurationError),
        props.get? e.key = some v ∧ e.complaint? props.path? v = some err := by
  constructor
  · rintro ⟨err, herr⟩
    obtain ⟨-, e, -, -, he, -⟩ :=
      List.findSome?_eq_some_iff.1 (configuration_eq_error_iff.1 herr)
    obtain ⟨v, hv, hcomplaint⟩ := Option.bind_eq_some_iff.1 he
    exact ⟨e, v, err, hv, hcomplaint⟩
  · rintro ⟨e, v, err, hv, hcomplaint⟩
    have he : (props.complaint? e).isSome = true :=
      Option.isSome_of_eq_some (Option.bind_eq_some_iff.2 ⟨v, hv, hcomplaint⟩)
    obtain ⟨first, hfirst⟩ :=
      Option.isSome_iff_exists.1 (List.findSome?_isSome_iff.2 ⟨e, e.mem_all, he⟩)
    exact ⟨first, configuration_eq_error_iff.2 hfirst⟩

/-! ### What the fields say -/

/-- The field `x` stands in the relation `R` to the value of the key, or it is the default if the
key has no value. -/
def Gives (props : Properties) (key : String) (default : α) (R : String → α → Prop) (x : α) :
    Prop :=
  (props.get? key).elim (x = default) fun v ↦ R v x

/-- A field gives whatever is made of what is read. -/
theorem gives_of_field {β : Type} {key : String} {default x : α}
    {read : String → Except ConfigurationError α} {R : String → β → Prop} (g : α → β)
    (hR : ∀ v, read v = .ok x → R v (g x)) (h : props.field key default read = .ok x) :
    props.Gives key (g default) R (g x) := by
  unfold field at h
  unfold Gives
  cases hv : props.get? key with
  | none =>
    rw [hv] at h
    exact congrArg g (Except.ok.inj h).symm
  | some v =>
    rw [hv] at h
    exact hR v h

/-- The same value of a key, or none, gives the same. -/
theorem Gives.unique {key : String} {default x y : α} {R R' : String → α → Prop}
    (hx : props.Gives key default R x) (hy : props'.Gives key default R' y)
    (hkey : props.get? key = props'.get? key) (hR : ∀ v, R v x → R' v y → x = y) : x = y := by
  unfold Gives at hx hy
  rw [← hkey] at hy
  cases hv : props.get? key with
  | none =>
    rw [hv] at hx hy
    exact Eq.trans hx hy.symm
  | some v =>
    rw [hv] at hx hy
    exact hR v hx hy

/-- A text spells a name in any case, between blanks. -/
def Spells (v name : String) : Prop :=
  Text.keyword (String.ofList (trimmed v)) = name

/-- The strategy is the one that the properties name, or the default. -/
def GivesStrategy (props : Properties) (k : SearchStrategy) : Prop :=
  props.Gives "coral.solver" .particleSwarm (fun v k ↦ Spells v (SearchStrategy.name k)) k

/-- What a configuration says, as far as it is read from properties. -/
structure Describes (props : Properties) (c : Configuration) : Prop where
  seed : props.Gives "coral.seed" 464655 (fun v x ↦ integer v = .ok x.toInt) c.seed
  iterations : props.Gives "coral.iterations" none
    (fun v b ↦ ∃ i, integer v = .ok i ∧ b = budget? i) c.iterations
  strategy : props.GivesStrategy c.strategy
  optimize : props.Gives "coral.optimize" true
    (fun v b ↦ String.ofList (trimmed (Text.lowercase v)) = if b then "true" else "false")
    c.optimize
  intervalSolver : props.Gives intervalSolverKey .none
    (fun v t ↦ Spells v t.name ∧ (t ≠ .none → t.path? = props.path?)) c.intervalSolver

/-- Two configurations have the same fields where the properties that they are read from have the
same values. The path does not count if there is no interval solver. -/
structure Corresponds (props props' : Properties) (c c' : Configuration) : Prop where
  seed : props.get? "coral.seed" = props'.get? "coral.seed" → c.seed = c'.seed
  iterations : props.get? "coral.iterations" = props'.get? "coral.iterations" →
    c.iterations = c'.iterations
  strategy : props.get? "coral.solver" = props'.get? "coral.solver" → c.strategy = c'.strategy
  optimize : props.get? "coral.optimize" = props'.get? "coral.optimize" → c.optimize = c'.optimize
  intervalSolver : props.get? intervalSolverKey = props'.get? intervalSolverKey →
    (c.intervalSolver ≠ .none → props.path? = props'.path?) → c.intervalSolver = c'.intervalSolver

theorem integer_of_readInt {key v : String} {i : Int} (h : readInt key v = .ok i) :
    integer v = .ok i := by
  unfold readInt at h
  split at h
  · next hread =>
    rw [integer, hread, Except.ok.inj h]
  · cases h

theorem spells_of_readStrategy {key v : String} {k : SearchStrategy}
    (h : readStrategy key v = .ok k) : Spells v k.name := by
  unfold readStrategy at h
  dsimp only at h
  split at h
  · next hread =>
    cases h
    exact SearchStrategy.read?_eq_some_iff.1 hread
  · cases h

theorem lowercase_of_readBool {key v : String} {b : Bool} (h : readBool key v = .ok b) :
    String.ofList (trimmed (Text.lowercase v)) = if b then "true" else "false" := by
  unfold readBool at h
  dsimp only at h
  split at h
  · next hread =>
    cases h
    exact hread
  · next hread =>
    cases h
    exact hread
  · cases h

theorem toInt_wrap_of_integer {v : String} {i : Int} (h : integer v = .ok i) :
    (Word.wrap .w64 i).toInt = i :=
  Word.toInt_wrap_of_fits (Text.mem_range_of_readInt (by decide) (by decide) h)

theorem describes_of_configuration (h : props.configuration = .ok c) :
    props.Describes c ∧ c.validate = .ok () := by
  rw [configuration_eq] at h
  obtain ⟨seed, hseed, h⟩ := bind_eq_ok_iff.1 h
  obtain ⟨iterations, hiterations, h⟩ := bind_eq_ok_iff.1 h
  obtain ⟨strategy, hstrategy, h⟩ := bind_eq_ok_iff.1 h
  obtain ⟨optimize, hoptimize, h⟩ := bind_eq_ok_iff.1 h
  obtain ⟨solver, hsolver, h⟩ := bind_eq_ok_iff.1 h
  obtain ⟨⟨⟩, hvalid, h⟩ := bind_eq_ok_iff.1 h
  cases h
  refine ⟨⟨?seed, ?iterations, ?strategy, ?optimize, ?intervalSolver⟩, hvalid⟩
  case seed =>
    refine gives_of_field (Word.wrap .w64) (fun v hread ↦ ?_) hseed
    have hv := integer_of_readInt hread
    rw [hv, toInt_wrap_of_integer hv]
  case iterations =>
    exact gives_of_field budget? (fun v hread ↦ ⟨_, integer_of_readInt hread, rfl⟩) hiterations
  case strategy => exact gives_of_field id (fun v ↦ spells_of_readStrategy) hstrategy
  case optimize => exact gives_of_field id (fun v ↦ lowercase_of_readBool) hoptimize
  case intervalSolver =>
    exact gives_of_field id (fun v ↦ IntervalSolver.ofName_eq_ok_iff.1) hsolver

/-- The fields agree because the values are the same and stand for one thing each. -/
theorem Describes.corresponds (h : props.Describes c) (h' : props'.Describes c') :
    Corresponds props props' c c' where
  seed hkey := h.seed.unique h'.seed hkey fun v hx hy ↦
    BitVec.eq_of_toInt_eq (Except.ok.inj (hx.symm.trans hy))
  iterations hkey := h.iterations.unique h'.iterations hkey fun v ⟨i, hi, hx⟩ ⟨j, hj, hy⟩ ↦ by
    rw [hx, hy, Except.ok.inj (hi.symm.trans hj)]
  strategy hkey := h.strategy.unique h'.strategy hkey fun v ↦ SearchStrategy.eq_of_keyword_eq
  optimize hkey := h.optimize.unique h'.optimize hkey fun v hx hy ↦ by
    have heq := hx.symm.trans hy
    revert heq
    cases c.optimize <;> cases c'.optimize <;> decide
  intervalSolver hkey hpath := by
    refine h.intervalSolver.unique h'.intervalSolver hkey ?_
    rintro v ⟨hname, hx⟩ ⟨hname', hy⟩
    have heq := hname.symm.trans hname'
    refine IntervalSolver.eq_of_name_eq heq fun hne ↦ ?_
    have hne' : c'.intervalSolver ≠ .none :=
      fun hnone ↦ hne ((IntervalSolver.eq_none_iff_of_name_eq heq).2 hnone)
    rw [hx hne, hy hne', hpath hne]

/-- The fields are read independently, and what is read is valid. Properties are refused if and only
if one of the values that they give is not acceptable, and the error is about the first such value
in the order of the entries. What a configuration says of a field is read from the value of its key,
or is the default, so configurations agree where the values do; an interval solver also depends on
its path, unless it is the absent one. Every configuration that is read is valid: a solver takes it,
and lets constraints be simplified only by an interval solver whose path is not empty. -/
theorem configuration_reads_fields (props : Properties) :
    (∀ err, props.configuration = .error err ↔
      Entry.all.findSome? props.complaint? = some err) ∧
    ((∃ err, props.configuration = .error err) ↔
      ∃ (e : Entry) (v : String) (err : ConfigurationError),
        props.get? e.key = some v ∧ e.complaint? props.path? v = some err) ∧
    ∀ c, props.configuration = .ok c →
      props.Describes c ∧
      (∀ props' c', configuration props' = .ok c' → Corresponds props props' c c') ∧
      c.validate = .ok () ∧
      (∀ engine, Solver.create engine c = .ok ⟨engine, c⟩) ∧
      (c.settings.simplify = true →
        ∃ path, c.settings.intervalSolver.path? = some path ∧ path ≠ "") := by
  refine ⟨fun err ↦ configuration_eq_error_iff, exists_configuration_eq_error_iff, fun c hc ↦ ?_⟩
  obtain ⟨hdescribes, hvalid⟩ := describes_of_configuration hc
  exact ⟨hdescribes,
    fun props' c' hc' ↦ hdescribes.corresponds (describes_of_configuration hc').1, hvalid,
    fun engine ↦ Solver.create_of_valid engine hvalid,
    Configuration.exists_path_of_simplify hvalid⟩

end Properties

end ConstraintSearch
