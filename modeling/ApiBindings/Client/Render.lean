import ApiBindings.Client.Basic

/-!
# Client files

The text of a client's file: a class that keeps a base address, and per method the statements that
build a URL from the path, its arguments and the query parameters.
-/

namespace ApiBindings.Client

open TypeScript (codeString)

/-- A text with every end of a comment broken up. -/
def commentSafeString (text : String) : String :=
  .ofList (commentSafe text.toList)

/-- Lines, each ended by a line feed. -/
def unlines (lines : List String) : String :=
  String.join (lines.map (· ++ "\n"))

/-- The comment and the head of the class, with the members that every client has. -/
def classHead (client : Client) : List String :=
  ["/**",
   " * API client generated for " ++ client.fileName,
   " * Base URL: " ++ commentSafeString client.baseUrl,
   " */",
   "export class " ++ client.className ++ " \x7b",
   "  private baseUrl: string;",
   "",
   "  constructor(baseUrl?: string) \x7b",
   "    this.baseUrl = (baseUrl || " ++ codeString client.baseUrl ++ ").replace(/\\/$/, '');",
   "  \x7d",
   "",
   "  /**",
   "   * Returns the configured base URL",
   "   */",
   "  getBaseUrl(): string \x7b",
   "    return this.baseUrl;",
   "  \x7d"]

/-- The statement that fills a token of the path. -/
def replaceLine (argument : PathArgument) : String :=
  "    url = url.split(" ++ codeString argument.placeholder ++ ").join(String(" ++ argument.identifier
    ++ "));"

/-- The statements that append the query parameters that are given. -/
def queryLines : List String :=
  ["    if (queryParams) \x7b",
   "      const searchParams = new URLSearchParams();",
   "      Object.entries(queryParams).forEach(([key, value]) => \x7b",
   "        if (value !== undefined && value !== null) \x7b",
   "          searchParams.append(key, String(value));",
   "        \x7d",
   "      \x7d);",
   "      const queryString = searchParams.toString();",
   "      if (queryString) url += '?' + queryString;",
   "    \x7d"]

def methodLines (method : Method) : List String :=
  ["", "  /**"]
    ++ method.commentText.map ("   * " ++ ·)
    ++ ["   */",
        "  " ++ method.name ++ "(" ++ method.signature ++ "): string \x7b",
        "    let url = this.baseUrl + " ++ codeString method.path ++ ";"]
    ++ method.pathArguments.map replaceLine
    ++ (if method.hasQuery then queryLines else [])
    ++ ["    return url;", "  \x7d"]

/-- The text of a client's file. -/
def render (client : Client) : String :=
  unlines (classHead client ++ client.methods.flatMap methodLines ++ ["\x7d"])

end ApiBindings.Client
