import PaymentScheduler.Py.Json

/-!
# Exceptions and calls

A Python exception is its class and its text (`str(exc)`). `Json.getItem` and `Json.getFirst` are
the subscripts `v["k"]` and `v[0]` with their errors. `Signature.bind` is the binding of the
arguments of a call to the parameters of a function: the errors come in the order in which CPython
finds them (a keyword that is no parameter, a parameter given twice, too many positional
arguments, missing positional arguments, missing keyword-only arguments).
-/

namespace PaymentScheduler

/-- The classes of the exceptions that the code raises or catches. -/
inductive ExceptionClass where
  | valueError
  | typeError
  | attributeError
  | overflowError
  | lookupError
  | invalidOperation
  | configurationError
  | bunqPaymentError
  | bunqTransientError
  | bunqAmbiguousError
  | other
  deriving DecidableEq, Repr

/-- A raised exception. -/
structure PyException where
  cls : ExceptionClass
  text : String
  deriving DecidableEq, Repr

def valueError (text : String) : PyException := ⟨.valueError, text⟩
def typeError (text : String) : PyException := ⟨.typeError, text⟩
def attributeError (text : String) : PyException := ⟨.attributeError, text⟩

/-- `type(v).__name__`. -/
def Json.typeName : Json → String
  | null => "NoneType"
  | bool _ => "bool"
  | int _ => "int"
  | float .. | inf _ => "float"
  | str _ => "str"
  | arr _ => "list"
  | obj _ => "dict"

/-- `v[k]` for a string `k`. -/
def Json.getItem (v : Json) (k : String) : Except PyException Json :=
  match v with
  | obj fields =>
    match fields.lookup k with
    | some x => .ok x
    | none => .error ⟨.lookupError, "'" ++ k ++ "'"⟩
  | arr _ => .error (typeError "list indices must be integers or slices, not str")
  | str _ => .error (typeError "string indices must be integers, not 'str'")
  | _ => .error (typeError s!"'{v.typeName}' object is not subscriptable")

/-- `v[0]`. -/
def Json.getFirst (v : Json) : Except PyException Json :=
  match v with
  | arr (x :: _) => .ok x
  | arr [] => .error ⟨.lookupError, "list index out of range"⟩
  | str s =>
    match s.toList with
    | c :: _ => .ok (.str (String.ofList [c]))
    | [] => .error ⟨.lookupError, "string index out of range"⟩
  | obj _ => .error ⟨.lookupError, "0"⟩
  | _ => .error (typeError s!"'{v.typeName}' object is not subscriptable")

/-- A parameter, with its default value if it has one. -/
structure Param (ν : Type*) where
  name : String
  default : Option ν := none

/-- The parameters of a function that takes no `*args` and no `**kwargs`. -/
structure Signature (ν : Type*) where
  /-- The qualified name, for the error texts. -/
  name : String
  /-- The parameters before the `*`. -/
  positional : List (Param ν) := []
  /-- The parameters after the `*`. -/
  keywordOnly : List (Param ν) := []

namespace Signature

variable {ν : Type*} (sig : Signature ν)

/-- `'a'`, `'a' and 'b'`, `'a', 'b', and 'c'`. -/
def quotedNames (names : List String) : String :=
  match names.map fun n => "'" ++ n ++ "'" with
  | [] => ""
  | [a] => a
  | [a, b] => a ++ " and " ++ b
  | qs => ", ".intercalate qs.dropLast ++ ", and " ++ qs.getLastD ""

/-- `plural n` is the ending of a counted noun. -/
def plural (n : Nat) : String := if n = 1 then "" else "s"

/-- The text for positional arguments that find no parameter: `given` of them, next to
`keywordOnlyGiven` keyword-only arguments. -/
def tooMany (given keywordOnlyGiven : Nat) : String :=
  let most := sig.positional.length
  let least := most - (sig.positional.filter (·.default.isSome)).length
  let takes :=
    if least = most then s!"{most} positional argument{plural most}"
    else s!"from {least} to {most} positional arguments"
  let extra :=
    if keywordOnlyGiven = 0 then ""
    else s!" positional argument{plural given} (and {keywordOnlyGiven} keyword-only argument" ++
      plural keywordOnlyGiven ++ ")"
  let verb := if given = 1 ∧ keywordOnlyGiven = 0 then "was" else "were"
  s!"{sig.name}() takes {takes} but {given}{extra} {verb} given"

/-- The text for parameters that get no value. -/
def missing (kind : String) (names : List String) : String :=
  s!"{sig.name}() missing {names.length} required {kind} argument{plural names.length}: " ++
    quotedNames names

/-- The call `f(*args, **kwargs)`: the value of each parameter, or the `TypeError`. -/
def bind (args : List ν) (kwargs : List (String × ν)) : Except PyException (List (String × ν)) :=
  let params := sig.positional ++ sig.keywordOnly
  let placed := (sig.positional.map (·.name)).zip args
  let value? (p : Param ν) := ((placed.lookup p.name).or (kwargs.lookup p.name)).or p.default
  let absent (ps : List (Param ν)) := (ps.filter fun p => (value? p).isNone).map (·.name)
  match kwargs.find? fun (k, _) => k ∉ params.map (·.name) with
  | some (k, _) => .error (typeError s!"{sig.name}() got an unexpected keyword argument '{k}'")
  | none =>
    match kwargs.find? fun (k, _) => k ∈ placed.map (·.1) with
    | some (k, _) => .error (typeError s!"{sig.name}() got multiple values for argument '{k}'")
    | none =>
      if sig.positional.length < args.length then
        let given := (sig.keywordOnly.filter fun p => (kwargs.lookup p.name).isSome).length
        .error (typeError (sig.tooMany args.length given))
      else if absent sig.positional ≠ [] then
        .error (typeError (sig.missing "positional" (absent sig.positional)))
      else if absent sig.keywordOnly ≠ [] then
        .error (typeError (sig.missing "keyword-only" (absent sig.keywordOnly)))
      else .ok (params.filterMap fun p => (value? p).map fun v => (p.name, v))

variable {sig}

/-- A call with more positional arguments than parameters, and no keyword, is refused. -/
theorem bind_tooMany {args : List ν} (h : sig.positional.length < args.length) :
    sig.bind args [] = .error (typeError (sig.tooMany args.length 0)) := by
  simp [bind, h]

/-- A keyword that names no parameter is refused. -/
theorem bind_unexpected {args : List ν} {kwargs : List (String × ν)} {k : String} {v : ν}
    (h : kwargs.find? (fun (k, _) => k ∉ (sig.positional ++ sig.keywordOnly).map (·.name)) =
      some (k, v)) :
    sig.bind args kwargs =
      .error (typeError s!"{sig.name}() got an unexpected keyword argument '{k}'") := by
  unfold bind
  simp only [h]

end Signature

end PaymentScheduler
