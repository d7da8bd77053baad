import ValueAnalysis.Registry

namespace ValueAnalysis

/-- A module of the package, with the names that the package exports from it, its other names, and those
that it borrows from other modules. -/
structure ModuleEntry where
  name : String
  exported : List String
  internal : List String
  borrowed : List String

namespace Catalogue

def package : String := "pentagon_domains"

def version : String := "0.1.0"

def modules : List ModuleEntry :=
  [
   ⟨"config",
      ["DomainConfig", "DomainRegistry", "create_state", "extrapolate", "configure_logging"],
      ["PACKAGE_LOGGER", "default_registry", "logger"],
      ["ValueEnvironment", "ConfigurationError", "ErrorCode", "UnknownDomainError", "Interval",
       "Pentagons", "Taint", "StrictUpperBounds"]⟩,
   ⟨"environment",
      ["Environment", "ValueEnvironment"],
      ["eval_expression", "satisfies_condition", "assume_condition", "satisfies_expression",
       "assume_expression", "logger"],
      ["ErrorCode", "SemanticError", "BinaryExpression", "BinaryOperator", "Constant",
       "Expression", "Identifier", "ProgramPoint", "PushAny", "SemanticOracle",
       "TernaryExpression", "UnaryExpression", "UnaryOperator", "negate_condition",
       "Satisfiability", "ValueDomain", "BOTTOM_REPRESENTATION", "TOP_REPRESENTATION",
       "MapRepresentation", "StructuredRepresentation"]⟩,
   ⟨"errors",
      ["ErrorCode", "DomainError", "SemanticError", "InvalidIntervalError",
       "ConfigurationError", "UnknownDomainError"],
      [],
      []⟩,
   ⟨"expressions",
      ["UnaryOperator", "BinaryOperator", "TernaryOperator", "Constant", "Identifier",
       "PushAny", "UnaryExpression", "BinaryExpression", "TernaryExpression", "SemanticOracle",
       "TAINTED_ANNOTATION", "CLEAN_ANNOTATION", "SINK_ANNOTATION"],
      ["ProgramPoint", "Expression", "negate_condition", "as_integer_literal"],
      []⟩,
   ⟨"interval",
      ["IntInterval", "Interval"],
      ["EMPTY_INTERVAL", "INFINITY_INTERVAL", "ZERO_INTERVAL", "TOP", "BOTTOM", "ZERO",
       "logger", "Bound"],
      ["ValueEnvironment", "eval_expression", "ErrorCode", "InvalidIntervalError",
       "BinaryOperator", "Constant", "Expression", "Identifier", "ProgramPoint",
       "SemanticOracle", "TernaryOperator", "UnaryOperator", "BaseValueDomain",
       "Satisfiability", "MINUS_INFINITY", "MINUS_ONE", "NAN", "ONE", "PLUS_INFINITY",
       "MathNumber", "BOTTOM_REPRESENTATION", "StringRepresentation",
       "StructuredRepresentation"]⟩,
   ⟨"lattice",
      ["Satisfiability", "Lattice", "ValueDomain", "AbstractState"],
      ["Representable", "BaseValueDomain"],
      ["BinaryOperator", "ProgramPoint", "SemanticOracle", "TernaryOperator", "UnaryOperator"]⟩,
   ⟨"mathnumber",
      ["MathNumber", "PLUS_INFINITY", "MINUS_INFINITY"],
      ["ZERO", "ONE", "MINUS_ONE", "NAN", "NumberLike"],
      ["ErrorCode", "SemanticError"]⟩,
   ⟨"pentagons",
      ["Pentagons"],
      ["logger"],
      ["ValueEnvironment", "BinaryExpression", "BinaryOperator", "Expression", "Identifier",
       "ProgramPoint", "SemanticOracle", "Interval", "Satisfiability", "BOTTOM_REPRESENTATION",
       "TOP_REPRESENTATION", "ListRepresentation", "MapRepresentation",
       "StructuredRepresentation", "StrictUpperBounds", "UpperBoundSet"]⟩,
   ⟨"representation",
      ["StructuredRepresentation", "StringRepresentation", "SetRepresentation",
       "ListRepresentation", "MapRepresentation"],
      ["TOP_STRING", "BOTTOM_STRING", "TOP_REPRESENTATION", "BOTTOM_REPRESENTATION"],
      []⟩,
   ⟨"taint",
      ["Taint", "Parameter", "CallSite", "TaintWarning", "check_sink_call"],
      ["ordinal", "logger"],
      ["ValueEnvironment", "CLEAN_ANNOTATION", "SINK_ANNOTATION", "TAINTED_ANNOTATION",
       "BinaryOperator", "Constant", "Expression", "Identifier", "ProgramPoint",
       "SemanticOracle", "TernaryOperator", "UnaryOperator", "BaseValueDomain",
       "BOTTOM_REPRESENTATION", "StringRepresentation", "StructuredRepresentation"]⟩,
   ⟨"upper_bounds",
      ["UpperBoundSet", "StrictUpperBounds"],
      ["TOP_BOUNDS", "BOTTOM_BOUNDS", "logger"],
      ["Environment", "assume_condition", "satisfies_condition", "ErrorCode", "SemanticError",
       "BinaryExpression", "BinaryOperator", "Expression", "Identifier", "ProgramPoint",
       "SemanticOracle", "as_integer_literal", "Satisfiability", "BOTTOM_REPRESENTATION",
       "TOP_REPRESENTATION", "SetRepresentation", "StructuredRepresentation"]⟩]

def moduleNames : List String := (NameSet.ofList (modules.map (·.name))).names

def exportedNames : List String :=
  (NameSet.ofList (modules.flatMap (fun m => m.name :: m.exported) ++
    ["list_submodules", "package_info", "__version__"])).names

def domains : List String := Registry.standard.tags.names

/-- Why a module that is not there cannot be found. Of a dotted name the first part that is missing
counts, and the modules have no parts of their own. -/
def missingReason (name : String) : String :=
  match name.splitOn "." with
  | first :: second :: _ =>
    if (moduleNames.contains first) then
      "No module named " ++ Text.quoted (package ++ "." ++ first ++ "." ++ second) ++ "; " ++
        Text.quoted (package ++ "." ++ first) ++ " is not a package"
    else "No module named " ++ Text.quoted (package ++ "." ++ first)
  | _ => "No module named " ++ Text.quoted (package ++ "." ++ name)

def lookUp (name : String) (wanted : List String) : Except Failure Unit :=
  match modules.find? (·.name == name) with
  | none => .error (.missingModule name (missingReason name))
  | some m =>
    match wanted.find? (!(m.exported ++ m.internal ++ m.borrowed).contains ·) with
    | some missing => .error (.missingExport name missing)
    | none => .ok ()

end Catalogue

end ValueAnalysis
