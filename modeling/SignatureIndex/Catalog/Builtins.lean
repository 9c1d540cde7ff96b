import SignatureIndex.Catalog.Basic

/-!
# The built-ins

The catalog that comes with the library: functions of the runtime module that need no import, and
the operators of the language.
-/

namespace SignatureIndex.Catalog

def builtins : Catalog where
  moduleName := "erlang"
  functions := [
    ⟨"abs", 1, ⟨[], "fun((number()) -> number())"⟩⟩,
    ⟨"atom_to_list", 1, ⟨[], "fun((atom()) -> string())"⟩⟩,
    ⟨"binary_to_list", 1, ⟨[], "fun((binary()) -> [byte()])"⟩⟩,
    ⟨"element", 2, ⟨[], "fun((pos_integer(), tuple()) -> term())"⟩⟩,
    ⟨"float", 1, ⟨[], "fun((number()) -> float())"⟩⟩,
    ⟨"hd", 1, ⟨["T"], "fun(([T, ...]) -> T)"⟩⟩,
    ⟨"integer_to_list", 1, ⟨[], "fun((integer()) -> string())"⟩⟩,
    ⟨"is_atom", 1, ⟨[], "fun((term()) -> boolean())"⟩⟩,
    ⟨"is_binary", 1, ⟨[], "fun((term()) -> boolean())"⟩⟩,
    ⟨"is_function", 2, ⟨[], "fun((term(), arity()) -> boolean())"⟩⟩,
    ⟨"is_integer", 1, ⟨[], "fun((term()) -> boolean())"⟩⟩,
    ⟨"is_list", 1, ⟨[], "fun((term()) -> boolean())"⟩⟩,
    ⟨"is_map", 1, ⟨[], "fun((term()) -> boolean())"⟩⟩,
    ⟨"is_tuple", 1, ⟨[], "fun((term()) -> boolean())"⟩⟩,
    ⟨"length", 1, ⟨[], "fun(([term()]) -> non_neg_integer())"⟩⟩,
    ⟨"list_to_atom", 1, ⟨[], "fun((string()) -> atom())"⟩⟩,
    ⟨"list_to_binary", 1, ⟨[], "fun((iolist()) -> binary())"⟩⟩,
    ⟨"list_to_integer", 1, ⟨[], "fun((string()) -> integer())"⟩⟩,
    ⟨"make_ref", 0, ⟨[], "fun(() -> reference())"⟩⟩,
    ⟨"map_size", 1, ⟨[], "fun((map()) -> non_neg_integer())"⟩⟩,
    ⟨"node", 0, ⟨[], "fun(() -> node())"⟩⟩,
    ⟨"round", 1, ⟨[], "fun((number()) -> integer())"⟩⟩,
    ⟨"self", 0, ⟨[], "fun(() -> pid())"⟩⟩,
    ⟨"setelement", 3, ⟨[], "fun((pos_integer(), tuple(), term()) -> tuple())"⟩⟩,
    ⟨"spawn", 1, ⟨[], "fun((fun(() -> term())) -> pid())"⟩⟩,
    ⟨"throw", 1, ⟨[], "fun((term()) -> none())"⟩⟩,
    ⟨"tl", 1, ⟨["T"], "fun(([T, ...]) -> [T])"⟩⟩,
    ⟨"trunc", 1, ⟨[], "fun((number()) -> integer())"⟩⟩,
    ⟨"tuple_size", 1, ⟨[], "fun((tuple()) -> non_neg_integer())"⟩⟩,
    ⟨"tuple_to_list", 1, ⟨[], "fun((tuple()) -> [term()])"⟩⟩ ]
  operators := [
    ⟨"+", 1, ⟨[], "fun((number()) -> number())"⟩⟩,
    ⟨"-", 1, ⟨[], "fun((number()) -> number())"⟩⟩,
    ⟨"+", 2, ⟨[], "fun((number(), number()) -> number())"⟩⟩,
    ⟨"-", 2, ⟨[], "fun((number(), number()) -> number())"⟩⟩,
    ⟨"*", 2, ⟨[], "fun((number(), number()) -> number())"⟩⟩,
    ⟨"/", 2, ⟨[], "fun((number(), number()) -> float())"⟩⟩,
    ⟨"div", 2, ⟨[], "fun((integer(), integer()) -> integer())"⟩⟩,
    ⟨"rem", 2, ⟨[], "fun((integer(), integer()) -> integer())"⟩⟩,
    ⟨"bnot", 1, ⟨[], "fun((integer()) -> integer())"⟩⟩,
    ⟨"band", 2, ⟨[], "fun((integer(), integer()) -> integer())"⟩⟩,
    ⟨"bor", 2, ⟨[], "fun((integer(), integer()) -> integer())"⟩⟩,
    ⟨"bxor", 2, ⟨[], "fun((integer(), integer()) -> integer())"⟩⟩,
    ⟨"bsl", 2, ⟨[], "fun((integer(), integer()) -> integer())"⟩⟩,
    ⟨"bsr", 2, ⟨[], "fun((integer(), integer()) -> integer())"⟩⟩,
    ⟨"not", 1, ⟨[], "fun((boolean()) -> boolean())"⟩⟩,
    ⟨"and", 2, ⟨[], "fun((boolean(), boolean()) -> boolean())"⟩⟩,
    ⟨"or", 2, ⟨[], "fun((boolean(), boolean()) -> boolean())"⟩⟩,
    ⟨"xor", 2, ⟨[], "fun((boolean(), boolean()) -> boolean())"⟩⟩,
    ⟨"==", 2, ⟨[], "fun((term(), term()) -> boolean())"⟩⟩,
    ⟨"/=", 2, ⟨[], "fun((term(), term()) -> boolean())"⟩⟩,
    ⟨"=:=", 2, ⟨[], "fun((term(), term()) -> boolean())"⟩⟩,
    ⟨"=/=", 2, ⟨[], "fun((term(), term()) -> boolean())"⟩⟩,
    ⟨"<", 2, ⟨[], "fun((term(), term()) -> boolean())"⟩⟩,
    ⟨"=<", 2, ⟨[], "fun((term(), term()) -> boolean())"⟩⟩,
    ⟨">", 2, ⟨[], "fun((term(), term()) -> boolean())"⟩⟩,
    ⟨">=", 2, ⟨[], "fun((term(), term()) -> boolean())"⟩⟩,
    ⟨"++", 2, ⟨["T"], "fun(([T], [T]) -> [T])"⟩⟩,
    ⟨"--", 2, ⟨["T"], "fun(([T], [T]) -> [T])"⟩⟩,
    ⟨"!", 2, ⟨["T"], "fun((pid() | atom(), T) -> T)"⟩⟩ ]

end SignatureIndex.Catalog
