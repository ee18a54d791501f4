import Emm.Time

/-!
The settings of the service and what is required of them.
-/

namespace Emm

/-- The intervals of the timers, in seconds, and how many expiries of T3470 end an
identification. -/
structure NasConfig where
  t3470Seconds : UInt64 := 6
  maxRetransmissions : UInt32 := 5
  retrySeconds : UInt64 := 1
deriving DecidableEq

/-- The settings of the whole service. Without a log filter the default log level applies. -/
structure Config where
  channelCapacity : UInt64 := 256
  logFilter : Option String := none
  nas : NasConfig := {}
deriving DecidableEq

/-- A setting that must not be zero. -/
inductive Setting
  | channelCapacity
  | t3470Interval
  | maxRetransmissions
  | retryInterval
deriving DecidableEq

namespace Setting

def key : Setting → String
  | channelCapacity => "channel_capacity"
  | t3470Interval => "t3470_interval_secs"
  | maxRetransmissions => "identification_max_retransmissions"
  | retryInterval => "specific_retry_interval_secs"

/-- The complaint about a setting that is zero. -/
def zeroMessage (s : Setting) : String := s.key ++ " must be non-zero"

end Setting

namespace NasConfig

def t3470Interval (c : NasConfig) : Duration := .ofSeconds c.t3470Seconds

def retryInterval (c : NasConfig) : Duration := .ofSeconds c.retrySeconds

/-- The first setting that is zero and must not be. -/
def validate (c : NasConfig) : Except Setting Unit :=
  if c.t3470Seconds = 0 then .error .t3470Interval
  else if c.maxRetransmissions = 0 then .error .maxRetransmissions
  else if c.retrySeconds = 0 then .error .retryInterval
  else .ok ()

end NasConfig

def Config.validate (c : Config) : Except Setting Unit :=
  if c.channelCapacity = 0 then .error .channelCapacity else c.nas.validate

end Emm
