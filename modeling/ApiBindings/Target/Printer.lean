import ApiBindings.Target.Declaration
import ApiBindings.Text.Basic

/-!
# The text of declarations

Whole files as they are written to disk: imports, a blank line, decorators, the declaration.
-/

namespace ApiBindings.Target.Literal

/-!
## String literals

Double-quoted TypeScript string literals.  Control characters and the line and paragraph separators
are escaped, so that a literal stays on one line.
-/

open ApiBindings.Text

/-- Whether a character cannot stand in a literal as it is, apart from quotes and backslashes. -/
def breaksLine (c : Char) : Bool :=
  isControl c || c.toNat == 0x2028 || c.toNat == 0x2029

/-- One character inside of a literal. -/
def escapeChar (c : Char) : List Char :=
  if c == '\\' then ['\\', '\\']
  else if c == '"' then ['\\', '"']
  else if c == '\n' then ['\\', 'n']
  else if c == '\r' then ['\\', 'r']
  else if c == '\t' then ['\\', 't']
  else if breaksLine c then '\\' :: 'u' :: hexQuad c.toNat
  else [c]

/-- A text inside of a literal. -/
def escapeChars (text : List Char) : List Char :=
  text.flatMap escapeChar

/-- A text inside of a literal. -/
def escape (text : String) : String :=
  String.ofList (escapeChars text.toList)

/-- The literal that denotes a text. -/
def quote (text : String) : String :=
  "\"" ++ escape text ++ "\""

end ApiBindings.Target.Literal

namespace ApiBindings.Target

/-! ## Statements and files -/

/-- Texts with commas between them. -/
def commaSeparated (texts : List String) : String :=
  String.intercalate ", " texts

/-- An import statement. -/
def Import.text (statement : Import) : String :=
  if statement.names.isEmpty then "import " ++ Literal.quote statement.path ++ ";\n"
  else
    "import \x7b " ++ commaSeparated statement.names ++ " \x7d from " ++
      Literal.quote statement.path ++ ";\n"

/-- The keyword of a private member. -/
def visibility (isPrivate : Bool) : String :=
  if isPrivate then "private " else ""

/-- A property on a line of its own. -/
def Property.text (property : Property) : String :=
  "  " ++ visibility property.isPrivate ++ property.name ++
    (match property.type with | some type => ": " ++ type.text | none => "") ++
    (match property.initialValue with | some value => " = " ++ Literal.quote value | none => "") ++
    ";\n"

/-- A parameter. -/
def Parameter.text (parameter : Parameter) : String :=
  visibility parameter.isPrivate ++ parameter.name ++ ": " ++ parameter.type.text

/-- Parameters between parentheses. -/
def parameterList (parameters : List Parameter) : String :=
  "(" ++ commaSeparated (parameters.map Parameter.text) ++ ")"

/-- A constructor, which does no more than take its parameters. -/
def constructorText (parameters : List Parameter) : String :=
  "  constructor" ++ parameterList parameters ++ " \x7b\x7d\n"

namespace Method

/-- The parameter sent as the body of the request: the first one, if the verb has a body. -/
def bodyParameter? (method : Method) (verb : Http.Verb) : Option Parameter :=
  if verb.hasBody then method.parameters.head? else none

/-- The parameters sent in the query: all that are not sent as the body. -/
def queryParameters (method : Method) (verb : Http.Verb) : List Parameter :=
  if verb.hasBody then method.parameters.drop 1 else method.parameters

/-- The options of the request, if it has any. -/
def requestOptions (method : Method) (verb : Http.Verb) : List String :=
  (if (method.bodyParameter? verb).isSome then ["headers: this.jsonHeaders()"] else []) ++
    (if (method.queryParameters verb).isEmpty then []
    else
      ["params: \x7b " ++ commaSeparated ((method.queryParameters verb).map (·.name)) ++ " \x7d"])

/-- The arguments of the call that sends the request. -/
def callArguments (method : Method) (verb : Http.Verb) : List String :=
  ["this.baseUrl"] ++
    (match method.bodyParameter? verb with
      | some body => ["JSON.stringify(" ++ body.name ++ ")"]
      | none => []) ++
    (if (method.requestOptions verb).isEmpty then []
    else ["\x7b " ++ commaSeparated (method.requestOptions verb) ++ " \x7d"])

/-- What is made of the response. A method without a result ignores it. -/
def responseHandler (method : Method) : String :=
  match method.returnType with
  | .primitive .void => "() => undefined"
  | type => "(response: Response) => response.json() as " ++ type.text

/-- The lines that send the request and wait for its response. -/
def requestText (method : Method) (verb : Http.Verb) : String :=
  "    return this.http\n" ++
    "      ." ++ verb.methodName ++ "(" ++ commaSeparated (method.callArguments verb) ++ ")\n" ++
    "      .toPromise()\n" ++
    "      .then(" ++ method.responseHandler ++ ");\n"

/-- A method. -/
def text (method : Method) : String :=
  let signature := "  " ++ method.name ++ parameterList method.parameters ++ ": "
  match method.verb with
  | none => signature ++ method.returnType.text ++ " \x7b\x7d\n"
  | some verb =>
      signature ++ "Promise<" ++ method.returnType.text ++ "> \x7b\n" ++
        method.requestText verb ++ "  \x7d\n"

end Method

/-- Texts one after the other. -/
def concat (texts : List String) : String :=
  String.join texts

/-- What comes before a class: its imports, modules loaded for their effects, and decorators. -/
def header (imports : List Import) (effects : List String) (decorators : List String) : String :=
  concat (imports.map Import.text) ++
    concat (effects.map fun path => "import " ++ Literal.quote path ++ ";\n") ++
    (if imports.isEmpty && effects.isEmpty then "" else "\n") ++
    concat (decorators.map fun decorator => "@" ++ decorator ++ "()\n")

/-- The file of a data class. -/
def DataClass.text (declaration : DataClass) : String :=
  header declaration.imports [] declaration.decorators ++
    "export class " ++ declaration.name ++
    (if declaration.typeParameters.isEmpty then ""
    else "<" ++ commaSeparated declaration.typeParameters ++ ">") ++
    (match declaration.baseClass with | some base => " extends " ++ base.text | none => "") ++
    " \x7b\n" ++ concat (declaration.properties.map Property.text) ++ "\x7d\n"

/-- The module that gives the results of requests their method `toPromise`. -/
def promiseModule : String :=
  "rxjs/add/operator/toPromise"

/-- The member that the requests with a body take their headers from. -/
def jsonHeadersText : String :=
  "\n  private jsonHeaders(): Headers \x7b\n" ++
    "    return new Headers(\x7b \"Content-Type\": \"application/json\" \x7d);\n  \x7d\n"

/-- Whether a request of the service has a body. -/
def ServiceClass.sendsBodies (declaration : ServiceClass) : Bool :=
  declaration.methods.any fun method => method.verb.any Http.Verb.hasBody

/-- The members of a service class in the order they are written in. -/
inductive ServiceMember where
  | property (property : Property)
  /-- The constructor, with its parameters. -/
  | constructor (parameters : List Parameter)
  /-- The member that makes the headers of requests with a body. -/
  | jsonHeaders
  | method (method : Method)
  deriving Repr

/-- A member, with the blank line that goes before all but the properties. -/
def ServiceMember.text : ServiceMember → String
  | .property declared => declared.text
  | .constructor parameters => "\n" ++ constructorText parameters
  | .jsonHeaders => jsonHeadersText
  | .method declared => "\n" ++ declared.text

/-- The names that a member adds to its class. A private parameter of the constructor is one. -/
def ServiceMember.declaredNames : ServiceMember → List String
  | .property declared => [declared.name]
  | .constructor parameters => "constructor" :: (parameters.filter (·.isPrivate)).map (·.name)
  | .jsonHeaders => ["jsonHeaders"]
  | .method declared => [declared.name]

/-- The members of a service class. -/
def ServiceClass.members (declaration : ServiceClass) : List ServiceMember :=
  declaration.properties.map .property ++ [.constructor declaration.constructorParameters] ++
    (if declaration.sendsBodies then [.jsonHeaders] else []) ++
    declaration.methods.map .method

/-- The file of a service. -/
def ServiceClass.text (declaration : ServiceClass) : String :=
  header declaration.imports [promiseModule] declaration.decorators ++
    "export class " ++ declaration.name ++ " \x7b\n" ++
    concat (declaration.members.map ServiceMember.text) ++ "\x7d\n"

/-- A member of an enumeration on a line of its own. -/
def EnumMember.text (member : EnumMember) : String :=
  "  " ++ member.name ++ (match member.value with | some value => " = " ++ value | none => "") ++
    ",\n"

/-- The file of an enumeration. -/
def Enum.text (declaration : Enum) : String :=
  "export enum " ++ declaration.name ++ " \x7b\n" ++
    concat (declaration.members.map EnumMember.text) ++ "\x7d\n"

/-- The file of a declaration. -/
def Declaration.text : Declaration → String
  | .dataClass declaration => declaration.text
  | .service declaration => declaration.text
  | .enum declaration => declaration.text

end ApiBindings.Target
