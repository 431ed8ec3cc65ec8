import TreeNav.Language.Table

/-!
The languages that are known from the start (`rust`, `go`, `python`, `javascript`, `json`,
`all`). Their tables are given as values; that they are read from texts each time a
registry is set up is left out.
-/
namespace TreeNav.LanguageTable

def rust : LanguageTable where
  id := "rust"
  name := "Rust"
  extensions := ["rs"]
  anonymousTrivial := true
  punctuationTrivial := true
  trivial :=
    ["line_comment", "block_comment", "doc_comment", "outer_doc_comment_marker",
      "inner_doc_comment_marker"]
  significant := []
  kinds
    | .function =>
      ["function_item", "function_signature_item", "closure_expression"]
    | .classLike =>
      ["struct_item", "enum_item", "union_item", "trait_item", "impl_item", "mod_item"]
    | .statement =>
      ["expression_statement", "let_declaration", "use_declaration", "const_item", "static_item",
        "type_item"]
    | .loop =>
      ["for_expression", "while_expression", "loop_expression", "if_expression",
        "match_expression"]
    | .comment =>
      ["line_comment", "block_comment"]
    | .argument =>
      ["parameter", "self_parameter"]
    | .variable =>
      ["let_declaration", "static_item", "const_item", "field_declaration"]
    | .typeLike =>
      ["type_identifier", "primitive_type", "generic_type", "scoped_type_identifier",
        "reference_type", "tuple_type", "array_type"]
    | .operator =>
      ["+", "-", "*", "/", "%", "=", "!", "<", ">", "&", "|", "^", "==", "!=", "<=", ">=", "&&",
        "||", "+=", "-=", "*=", "/=", "%=", "&=", "|=", "^=", "<<", ">>", "<<=", ">>=", "..",
        "..=", "?", "as"]
    | .expression =>
      ["call_expression", "binary_expression", "unary_expression", "field_expression",
        "index_expression", "reference_expression", "assignment_expression",
        "compound_assignment_expr", "range_expression", "try_expression", "type_cast_expression",
        "await_expression"]
    | .macroUse =>
      ["macro_invocation", "macro_definition"]
  argumentLists := ["arguments", "parameters", "closure_parameters"]

def go : LanguageTable where
  id := "go"
  name := "Go"
  extensions := ["go"]
  anonymousTrivial := true
  punctuationTrivial := true
  trivial :=
    ["comment"]
  significant := []
  kinds
    | .function =>
      ["function_declaration", "method_declaration", "func_literal"]
    | .classLike =>
      ["type_declaration", "struct_type", "interface_type"]
    | .statement =>
      ["expression_statement", "short_var_declaration", "var_declaration", "const_declaration",
        "assignment_statement", "return_statement", "go_statement", "defer_statement",
        "inc_statement", "dec_statement", "send_statement", "import_declaration"]
    | .loop =>
      ["for_statement", "if_statement", "expression_switch_statement", "type_switch_statement",
        "select_statement"]
    | .comment =>
      ["comment"]
    | .argument =>
      ["parameter_declaration", "variadic_parameter_declaration"]
    | .variable =>
      ["var_spec", "const_spec", "short_var_declaration", "field_declaration"]
    | .typeLike =>
      ["type_identifier", "qualified_type", "pointer_type", "slice_type", "array_type",
        "map_type", "channel_type"]
    | .operator =>
      ["+", "-", "*", "/", "%", "=", "!", "<", ">", "&", "|", "^", "==", "!=", "<=", ">=", "&&",
        "||", ":=", "+=", "-=", "*=", "/=", "%=", "++", "--", "<<", ">>", "&^", "<-"]
    | .expression =>
      ["call_expression", "binary_expression", "unary_expression", "selector_expression",
        "index_expression", "slice_expression", "type_assertion_expression"]
    | .macroUse => []
  argumentLists := ["argument_list"]

def python : LanguageTable where
  id := "python"
  name := "Python"
  extensions := ["py", "pyi"]
  anonymousTrivial := true
  punctuationTrivial := true
  trivial :=
    ["comment", "line_continuation"]
  significant := []
  kinds
    | .function =>
      ["function_definition", "lambda"]
    | .classLike =>
      ["class_definition"]
    | .statement =>
      ["expression_statement", "return_statement", "assert_statement", "import_statement",
        "import_from_statement", "pass_statement", "break_statement", "continue_statement",
        "raise_statement", "global_statement", "nonlocal_statement", "delete_statement"]
    | .loop =>
      ["for_statement", "while_statement", "if_statement", "try_statement", "with_statement",
        "match_statement"]
    | .comment =>
      ["comment"]
    | .variable =>
      ["assignment", "augmented_assignment"]
    | .typeLike =>
      ["type"]
    | .operator =>
      ["+", "-", "*", "/", "%", "**", "//", "=", "<", ">", "&", "|", "^", "~", "==", "!=", "<=",
        ">=", "+=", "-=", "*=", "/=", "%=", "**=", "//=", "<<", ">>", ":=", "and", "or", "not",
        "in", "is"]
    | .expression =>
      ["call", "binary_operator", "boolean_operator", "comparison_operator", "unary_operator",
        "not_operator", "attribute", "subscript", "conditional_expression", "await"]
    | .macroUse =>
      ["decorator"]
    | .argument => []
  argumentLists := ["argument_list", "parameters", "lambda_parameters"]

def javascript : LanguageTable where
  id := "javascript"
  name := "JavaScript"
  extensions := ["js", "jsx", "mjs", "cjs"]
  anonymousTrivial := true
  punctuationTrivial := true
  trivial :=
    ["comment", "html_comment"]
  significant := []
  kinds
    | .function =>
      ["function_declaration", "function_expression", "generator_function_declaration",
        "generator_function", "arrow_function", "method_definition"]
    | .classLike =>
      ["class_declaration", "class", "object"]
    | .statement =>
      ["expression_statement", "lexical_declaration", "variable_declaration", "return_statement",
        "throw_statement", "import_statement", "export_statement", "break_statement",
        "continue_statement"]
    | .loop =>
      ["for_statement", "for_in_statement", "while_statement", "do_statement", "if_statement",
        "switch_statement", "try_statement", "ternary_expression"]
    | .comment =>
      ["comment", "html_comment"]
    | .variable =>
      ["variable_declarator", "field_definition"]
    | .operator =>
      ["+", "-", "*", "/", "%", "**", "=", "!", "<", ">", "&", "|", "^", "~", "==", "!=", "===",
        "!==", "<=", ">=", "&&", "||", "??", "++", "--", "+=", "-=", "*=", "/=", "%=", "**=",
        "&&=", "||=", "??=", "<<", ">>", ">>>", "=>", "?.", "typeof", "instanceof", "in"]
    | .expression =>
      ["call_expression", "new_expression", "binary_expression", "unary_expression",
        "update_expression", "member_expression", "subscript_expression", "assignment_expression",
        "augmented_assignment_expression", "await_expression"]
    | .macroUse =>
      ["decorator"]
    | .argument | .typeLike => []
  argumentLists := ["arguments", "formal_parameters"]

def json : LanguageTable where
  id := "json"
  name := "JSON"
  extensions := ["json"]
  anonymousTrivial := true
  punctuationTrivial := true
  trivial :=
    ["comment"]
  significant := []
  kinds
    | .classLike =>
      ["object"]
    | .statement =>
      ["pair"]
    | .comment =>
      ["comment"]
    | .function | .loop | .argument | .variable | .typeLike | .operator | .expression
    | .macroUse => []
  argumentLists := ["array"]

/-- The built-in languages, in the order in which they are registered. -/
def builtin : List LanguageTable := [rust, go, python, javascript, json]

end TreeNav.LanguageTable
