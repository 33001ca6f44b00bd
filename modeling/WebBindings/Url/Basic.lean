/-!
# URLs

A URL is known by its text. How texts are read as URLs is left to a resolver.
-/

namespace WebBindings

structure Url where
  shown : String
deriving DecidableEq

/-- Reads a text as a URL, relative to a base if there is one. -/
abbrev Url.Resolver := Option Url → String → Option Url

end WebBindings
