/-
  Engines: patterns to texts in one step.

  An engine parses a pattern, keeps the message in a cache by the text of the
  pattern, and renders it.  It has a locale for calls that name none, its own
  rules and limits, and a localizer.  A pattern that cannot be parsed leaves
  nothing in the cache.
-/
import Phrasebook.Cache
import Phrasebook.Localizer.Standard
import Phrasebook.Pattern.Parser
import Phrasebook.Render

set_option autoImplicit false

namespace Phrasebook

open Phrasebook.Pattern

/-! ## Construction -/

/-- The size of the cache that an engine builds for itself. -/
structure CacheConfig where
  size : Nat
  size_pos : 0 < size
  deriving DecidableEq, Repr

instance : Inhabited CacheConfig := ⟨⟨Cache.defaultCapacity, Cache.defaultCapacity_pos⟩⟩

/-- Why an engine cannot be built. -/
inductive EngineFault where
  /-- the size of its cache is not positive -/
  | sizeNotPositive
  /-- it is given both a cache and the size of one -/
  | cacheAndConfig
  deriving DecidableEq, Repr, Inhabited

/-- What is wrong with what an engine is built from. -/
def EngineFault.message : EngineFault → String
  | .sizeNotPositive => "size must be positive"
  | .cacheAndConfig => "Pass either cache or cache_config, not both"

/-- A configuration with the given size, or the default one. -/
def CacheConfig.make? (size : Option Int) : Except EngineFault CacheConfig :=
  match size with
  | none => .ok default
  | some n => if h : 0 < n then .ok ⟨n.toNat, Cache.toNat_pos h⟩ else .error .sizeNotPositive

/-- A cache of messages by pattern. -/
abbrev MessageCache : Type := Cache Message

/-- The cache that a configuration asks for. -/
def CacheConfig.cache (config : CacheConfig) : MessageCache :=
  { capacity := config.size, capacity_pos := config.size_pos }

/-- Formats patterns. -/
structure Engine where
  locale : String := "en"
  cache : MessageCache := default
  rules : Plural.Registry := .empty
  localizer : Localizer := .standard
  parser : Parser := default

instance : Inhabited Engine := ⟨{}⟩

namespace Engine

/-- The cache of an engine that may be given one, or a configuration for one, but not both. -/
def cacheOf (cache : Option MessageCache) (config : Option CacheConfig) :
    Except EngineFault MessageCache :=
  match cache, config with
  | some _, some _ => .error .cacheAndConfig
  | some cache, none => .ok cache
  | none, config => .ok (config.getD default).cache

/-! ## Use -/

/-- Why a pattern gives no text. -/
inductive Failure where
  | parse (failure : ParseFailure)
  | render (failure : RenderFailure)
  deriving DecidableEq, Repr, Inhabited

/-- The message of a pattern, from the cache if it is there. -/
def parse (e : Engine) (pattern : String) : Except ParseFailure Message × Engine :=
  let (result, cache) := e.cache.fetch pattern fun cache => (e.parser.parse pattern, cache)
  (result, { e with cache })

/-- The arguments of a call: those of a table and those given by keyword, which win. -/
def mergedArguments (arguments keywords : Arguments) : Arguments :=
  Entries.insertAll arguments keywords

/-- The setting of a call, in the locale of the engine if it names none. -/
def setting (e : Engine) (arguments : Arguments) (locale : Option String) : Setting where
  arguments := arguments
  locale := locale.getD e.locale
  rules := e.rules
  localizer := e.localizer

/-- The text of a pattern for some arguments. -/
def format (e : Engine) (pattern : String) (arguments : Arguments) (locale : Option String) :
    Except Failure String × Engine :=
  match e.parse pattern with
  | (.error failure, e) => (.error (.parse failure), e)
  | (.ok message, e) =>
    match render (e.setting arguments locale) message with
    | .ok text => (.ok text, e)
    | .error failure => (.error (.render failure), e)

/-- Forgets every parsed pattern. -/
def clearCache (e : Engine) : Engine := { e with cache := e.cache.clear }

end Engine

end Phrasebook
