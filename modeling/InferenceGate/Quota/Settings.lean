import InferenceGate.Text.Blank
import InferenceGate.Text.Integer

/-!
# Rate limits: as written and as applied

The limits of a configuration are signed numbers; `RateLimits.normalize` turns them into settings, in which a limit of zero
switches its dimension off and every other parameter has a usable value. A gateway holds its settings in a cache, filled from
the configuration when first asked and again on demand; a configuration that cannot be read switches both dimensions off.
-/

namespace InferenceGate.Quota

/-- The tokens that cost one unit where the configuration names none. -/
def usualTokenUnit : Nat := 100

/-- The size of a reply where the configuration names none. -/
def usualReply : Nat := 256

/-- The length of a window in seconds where the configuration names none. -/
def usualWindow : Nat := 60

/-- What counter keys begin with where the configuration says nothing. -/
def usualKeyHead : String := "rl:chat"

/-- Rate limits as a configuration writes them. -/
structure RateLimits where
  requestPerMin : Int := 0
  tokenPerMin : Int := 0
  tokenUnit : Int := 0
  defaultMaxTokens : Int := 0
  windowSeconds : Int := 0
  keyHead : String := ""
  deriving DecidableEq

/-- Rate limits as applied. -/
structure Settings where
  requestPerMin : Nat
  tokenPerMin : Nat
  tokenUnit : Nat
  defaultMaxTokens : Nat
  windowSeconds : Nat
  keyHead : String
  deriving DecidableEq

/-- A positive number, or a fallback. -/
def positiveOr (n : Int) (fallback : Nat) : Nat := if 0 < n then n.toNat else fallback

/-- A positive fallback leaves nothing but positive numbers. -/
theorem positiveOr_pos (n : Int) {fallback : Nat} (h : 0 < fallback) : 0 < positiveOr n fallback := by
  unfold positiveOr
  split <;> omega

/-- The settings that rate limits stand for. -/
def RateLimits.normalize (r : RateLimits) : Settings where
  requestPerMin := positiveOr r.requestPerMin 0
  tokenPerMin := positiveOr r.tokenPerMin 0
  tokenUnit := positiveOr r.tokenUnit usualTokenUnit
  defaultMaxTokens := positiveOr r.defaultMaxTokens usualReply
  windowSeconds := positiveOr r.windowSeconds usualWindow
  keyHead := (Text.trimmed? r.keyHead).getD usualKeyHead

namespace Settings

/-- Settings before any were loaded. -/
def unloaded : Settings := ⟨0, 0, 0, 0, 0, ""⟩

/-- Settings that have been loaded: no parameter other than a limit is missing. -/
def isValid (s : Settings) : Bool := 0 < s.tokenUnit && 0 < s.defaultMaxTokens && 0 < s.windowSeconds && !s.keyHead.isEmpty

/-- Requests are counted. -/
def requestEnabled (s : Settings) : Bool := 0 < s.requestPerMin

/-- Tokens are counted. -/
def tokenEnabled (s : Settings) : Bool := 0 < s.tokenPerMin

/-- Something is counted. -/
def anyEnabled (s : Settings) : Bool := s.requestEnabled || s.tokenEnabled

end Settings

/-- Settings that limits stand for are such as have been loaded, whatever the limits. -/
theorem RateLimits.isValid_normalize (r : RateLimits) : r.normalize.isValid = true := by
  have hunit : 0 < r.normalize.tokenUnit := positiveOr_pos _ (by decide)
  have hreply : 0 < r.normalize.defaultMaxTokens := positiveOr_pos _ (by decide)
  have hwindow : 0 < r.normalize.windowSeconds := positiveOr_pos _ (by decide)
  have hhead : r.normalize.keyHead.isEmpty = false := by
    unfold normalize Text.trimmed?
    simp only
    split
    · decide
    · rename_i h
      exact Bool.eq_false_iff.2 h
  simp [Settings.isValid, hunit, hreply, hwindow, hhead]

/-- The settings a gateway goes by at present. -/
structure SettingsCache where
  current : Settings := .unloaded
  deriving DecidableEq

namespace SettingsCache

/-- New limits in place of the current settings. -/
def replace (limits : RateLimits) (_ : SettingsCache) : Settings × SettingsCache :=
  (limits.normalize, ⟨limits.normalize⟩)

/-- The limits read again; a source that cannot be read gives none. -/
def refresh (source : Option RateLimits) (c : SettingsCache) : Settings × SettingsCache :=
  c.replace (source.getD {})

/-- The current settings, read from the source if none are loaded. -/
def get (source : Option RateLimits) (c : SettingsCache) : Settings × SettingsCache :=
  if c.current.isValid then (c.current, c) else c.refresh source

end SettingsCache

end InferenceGate.Quota
