import Turnstile.Exchange

/-!
# Scripted exchanges

An exchange whose every call ends as written down beforehand. Where a list of endings is used up,
calls end well.
-/

namespace Turnstile

/-- How the calls on an exchange end. -/
structure Scripted where
  /-- The metadata of the request. -/
  metadata : Metadata
  /-- The events reported whenever reading starts. -/
  bodyEvents : List IoEvent
  /-- How starting to read ends. -/
  readReply : Reply
  /-- The events reported when the response starts. -/
  responseEvents : List IoEvent
  /-- How starting the response ends. -/
  responseReply : Reply
  /-- The answers on whether the exchange is ready. -/
  readiness : List Readiness
  /-- How writes end. -/
  writeReplies : List Reply
  /-- How responses past the usual way end. -/
  fallbackReplies : List Reply
  /-- The fault that declaring the exchange over raises. -/
  completionFault : Option Fault
  /-- The fault that refusing the exchange raises. -/
  rejectionFault : Option Fault

namespace Scripted

/-- An exchange whose calls all end well and that can be written to at once. -/
def new (m : Metadata) : Scripted where
  metadata := m
  bodyEvents := []
  readReply := .ok
  responseEvents := [.writable]
  responseReply := .ok
  readiness := []
  writeReplies := []
  fallbackReplies := []
  completionFault := none
  rejectionFault := none

instance : Exchange Scripted where
  metadata x := x.metadata
  readBody x := (x.readReply, x.bodyEvents, x)
  startResponse x _ _ := (x.responseReply, x.responseEvents, x)
  isReady x := (x.readiness.headD .ready, { x with readiness := x.readiness.tail })
  write x _ := (x.writeReplies.headD .ok, { x with writeReplies := x.writeReplies.tail })
  sendFallback x _ :=
    (x.fallbackReplies.headD .ok, { x with fallbackReplies := x.fallbackReplies.tail })
  complete x := (x.completionFault, x)
  reject x _ := (x.rejectionFault, x)
  wake _ := none

end Scripted

end Turnstile
