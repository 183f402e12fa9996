import StagedBuild.NameSet
import StagedBuild.Target

/-!
# External modules

Modules that a bundle leaves to be found when it runs: those that the host runtime provides and
those that the project declares as dependencies. Only the server bundle leaves any out.

## Main definitions

* `HostBuiltins`: the modules of a version of a runtime.
* `Externals.names`: the union of declared and provided names.
* `Externals.forTarget`: the external modules of one target.
-/

namespace StagedBuild

/-- The modules that a version of a host runtime provides. -/
structure HostBuiltins where
  runtime : String
  version : String
  names : NameSet
deriving DecidableEq

namespace HostBuiltins

/-- Runtime and version in one word. -/
def label (builtins : HostBuiltins) : String :=
  builtins.runtime ++ "@" ++ builtins.version

/-- The modules of version 20 of the server runtime; those whose names begin with an underscore are
left out. -/
def node20Names : List String :=
  ["assert", "assert/strict", "async_hooks", "buffer", "child_process", "cluster", "console",
    "constants", "crypto", "dgram", "diagnostics_channel", "dns", "dns/promises", "domain",
    "events", "fs", "fs/promises", "http", "http2", "https", "inspector", "module", "net", "os",
    "path", "path/posix", "path/win32", "perf_hooks", "process", "punycode", "querystring",
    "readline", "readline/promises", "repl", "stream", "stream/consumers", "stream/promises",
    "stream/web", "string_decoder", "sys", "timers", "timers/promises", "tls", "trace_events",
    "tty", "url", "util", "util/types", "v8", "vm", "wasi", "worker_threads", "zlib"]

/-- Version 20 of the server runtime. -/
def node20 : HostBuiltins :=
  ⟨"node", "20", NameSet.ofList node20Names⟩

end HostBuiltins

namespace Externals

def names (declared provided : NameSet) : NameSet :=
  declared.union provided

/-- Whether a target leaves modules out at all. -/
def areLeftOutFor : Target → Bool
  | .server => true
  | .client | .serviceWorker => false

/-- The modules that the bundle of a target leaves out. -/
def forTarget (builtins : HostBuiltins) (declared : NameSet) (target : Target) : NameSet :=
  if areLeftOutFor target then names declared builtins.names else .empty

end Externals
end StagedBuild
