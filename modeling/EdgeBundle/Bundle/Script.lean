import EdgeBundle.Bundle.Template

/-!
# The script of the bundle

The script around the linked modules. One function sets up the registry, the embedded files, the
stand-ins for builtins and a shim for the server, runs the modules and gives back the handler of the
application; after it the handler is registered with the edge platform, or the application is
started on a local one.

The script is a template, and the stand-ins are a template of their own.
-/

namespace EdgeBundle

namespace Template

/-- Source of whole lines. -/
def ofLines (lines : List String) : String :=
  String.join (lines.map (· ++ "\n"))

/-- Stand-ins for the builtins that read files and handle paths, and a substitute for `process`. -/
def polyfillsLines : List String :=
    ["const __vfsNormalize = (filepath) => \x7b",
     "  let path = String(filepath).replace(/\\\\/g, \"/\");",
     "  if (path.startsWith(\"file://\")) path = path.slice(7);",
     "  path = path.replace(/^[A-Za-z]:/, \"\");",
     "  const hop = path.lastIndexOf(\"/dist/../\");",
     "  if (hop !== -1) path = path.slice(hop + 9);",
     "  return path;",
     "\x7d;",
     "",
     "const __vfsEndsWithSegment = (haystack, suffix) => \x7b",
     "  if (!suffix || !haystack.endsWith(suffix)) return false;",
     "  const start = haystack.length - suffix.length;",
     "  return start === 0 || suffix.startsWith(\"/\") || haystack[start - 1] === \"/\";",
     "\x7d;",
     "",
     "const __vfsResolve = (filepath) => \x7b",
     "  const path = __vfsNormalize(filepath);",
     "  if (Object.prototype.hasOwnProperty.call(__VFS__, path)) return path;",
     "",
     "  const keys = Object.keys(__VFS__);",
     "  const multiSegment = path.includes(\"/\");",
     "  for (const key of keys) \x7b",
     "    const suffix = __vfsEndsWithSegment(path, key)",
     "      || (multiSegment && __vfsEndsWithSegment(key, path));",
     "    if (suffix || (key.length > \x7b\x7bmin_contained_len\x7d\x7d && path.includes(key))) "
       ++ "return key;",
     "  \x7d",
     "",
     "  const filename = path.split(\"/\").pop();",
     "  if (filename) \x7b",
     "    for (const key of keys) \x7b",
     "      if (key.split(\"/\").pop() === filename) return key;",
     "    \x7d",
     "  \x7d",
     "  return undefined;",
     "\x7d;",
     "",
     "const __vfsRead = (filepath) => \x7b",
     "  const key = __vfsResolve(filepath);",
     "  if (key === undefined) \x7b",
     "    const err = new Error(`File not found in VFS: $\x7bfilepath\x7d (normalized: "
       ++ "$\x7b__vfsNormalize(filepath)\x7d)`);",
     "    err.code = \"ENOENT\";",
     "    throw err;",
     "  \x7d",
     "  return __VFS__[key];",
     "\x7d;",
     "",
     "const __vfsStat = (filepath) => \x7b",
     "  const content = __vfsRead(filepath);",
     "  return \x7b size: new TextEncoder().encode(content).length, isFile: () => true, "
       ++ "isDirectory: () => false \x7d;",
     "\x7d;",
     "",
     "const node_fs = \x7b",
     "  promises: \x7b",
     "    readFile: async (filepath) => __vfsRead(filepath),",
     "    access: async (filepath) => \x7b",
     "      __vfsRead(filepath);",
     "    \x7d,",
     "    stat: async (filepath) => __vfsStat(filepath),",
     "  \x7d,",
     "  readFileSync: (filepath) => __vfsRead(filepath),",
     "  existsSync: (filepath) => __vfsResolve(filepath) !== undefined,",
     "  statSync: (filepath) => __vfsStat(filepath),",
     "\x7d;",
     "",
     "const node_url = \x7b",
     "  fileURLToPath: (url) => String(url).replace(/^file:\\/\\/\\/?/, \"/\"),",
     "  pathToFileURL: (path) => new URL(`file://$\x7bpath\x7d`),",
     "\x7d;",
     "",
     "const node_path = \x7b",
     "  dirname: (p) => \x7b",
     "    if (!p) return \".\";",
     "    const path = String(p).replace(/\\\\/g, \"/\");",
     "    const lastSlash = path.lastIndexOf(\"/\");",
     "    return lastSlash <= 0 ? \"/\" : path.substring(0, lastSlash);",
     "  \x7d,",
     "  resolve: (...paths) => \x7b",
     "    let result = \"\";",
     "    for (const p of paths) \x7b",
     "      if (!p) continue;",
     "      const path = String(p).replace(/\\\\/g, \"/\");",
     "      result = path.startsWith(\"/\") || !result ? path : `$\x7bresult\x7d/$\x7bpath\x7d`;",
     "    \x7d",
     "    return result.replace(/\\/\\/+/g, \"/\") || \"/\";",
     "  \x7d,",
     "  join: (...paths) => paths.filter(Boolean).join(\"/\").replace(/\\/\\/+/g, \"/\"),",
     "  basename: (p) => String(p).split(\"/\").pop() || \"\",",
     "\x7d;",
     "",
     "const __hostProcess = globalThis.process;",
     "const __processRecord = __hostProcess ? \x7b\x7d : \x7b env: \x7b\x7d, argv: [], on: () => "
       ++ "process \x7d;",
     "const process = new Proxy(__processRecord, \x7b",
     "  get(target, prop) \x7b",
     "    if (prop in target) return target[prop];",
     "    const value = __hostProcess?.[prop];",
     "    return typeof value === \"function\" ? value.bind(__hostProcess) : value;",
     "  \x7d,",
     "  has(target, prop) \x7b",
     "    return prop in target || (__hostProcess !== undefined && prop in __hostProcess);",
     "  \x7d,",
     "  set(target, prop, value) \x7b",
     "    target[prop] = value;",
     "    return true;",
     "  \x7d,",
     "\x7d);",
     "try \x7b",
     "  globalThis.process ??= process;",
     "\x7d catch \x7b",
     "  // read-only global on the edge platform",
     "\x7d"]

/-- The script around the modules. -/
def bundleLines : List String :=
    ["/**",
     " * Edge deployment bundle generated by \x7b\x7bgenerator\x7d\x7d.",
     " *",
     " * Modules: \x7b\x7bmodule_count\x7d\x7d",
     " * Embedded files: \x7b\x7bstatic_count\x7d\x7d",
     " */",
     "",
     "function initializeApp() \x7b",
     "const \x7b\x7bregistry\x7d\x7d = \x7b\x7d;",
     "const __VFS__ = \x7b\x7bvfs\x7d\x7d;",
     "",
     "\x7b\x7b> polyfills\x7d\x7d",
     "",
     "let __servedHandler;",
     "const serve = (options) => \x7b",
     "  __servedHandler = typeof options === \"function\" ? options : options?.fetch;",
     "  if (globalThis.\x7b\x7bedge_flag\x7d\x7d) return undefined;",
     "  return globalThis.Deno?.serve(options);",
     "\x7d;",
     "",
     "globalThis.__nitro_main__ = \x7b\x7bmain_url\x7d\x7d;",
     "globalThis.\x7b\x7bedge_flag\x7d\x7d = typeof \x7b\x7bedge_global\x7d\x7d !== \"undefined\";",
     "",
     "\x7b\x7bmodules\x7d\x7d",
     "return __servedHandler",
     "  || globalThis.__nitro__?.default?.fetch",
     "  || ((req) => new Response(\"App not initialized\", \x7b status: 500 \x7d));",
     "\x7d",
     "",
     "if (typeof \x7b\x7bedge_global\x7d\x7d !== \"undefined\" && "
       ++ "\x7b\x7bedge_global\x7d\x7d.v1?.serve) \x7b",
     "  let __handlerPromise;",
     "  \x7b\x7bedge_global\x7d\x7d.v1.serve((req) => \x7b",
     "    __handlerPromise ??= Promise.resolve().then(initializeApp);",
     "    return __handlerPromise.then((handler) => handler(req));",
     "  \x7d);",
     "\x7d else \x7b",
     "  initializeApp();",
     "\x7d"]

end Template

namespace TemplateRegistry

/-- The registry with the script and the stand-ins. The script is code, so that values enter it as
they are, and a field that the context does not have would leave it broken. -/
def ofEngine (engine : TemplateEngine) : Except Error TemplateRegistry := do
  let empty : TemplateRegistry := { strict := true, escape := id, templates := [] }
  let r ← (empty.register engine "bundle" (Template.ofLines Template.bundleLines)).mapError
    fun detail => .template (.malformed "bundle template" detail)
  (r.register engine "polyfills" (Template.ofLines Template.polyfillsLines)).mapError
    fun detail => .template (.malformed "polyfills partial" detail)

end TemplateRegistry

namespace Template

/-- Registered template with the given name. -/
def named? (name : String) : Option Template :=
  (TemplateRegistry.ofEngine .standard).toOption.bind (·.find? name)

/-- Text of the registered template with the given name in a context. -/
def renderWith (engine : TemplateEngine) (name : String) (context : Json) :
    Except Error String := do
  let r ← TemplateRegistry.ofEngine engine
  (r.render engine name context).mapError fun detail => .template (.unrendered detail)

/-- Text of the registered template with the given name in a context. -/
def renderNamed (name : String) (context : Json) : Except Error String :=
  renderWith .standard name context

end Template

end EdgeBundle
