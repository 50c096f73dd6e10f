/-!
# Sinks for printed text

A program prints into a sink. A buffer keeps the text for the host, a silent sink drops it, and a
console sink passes it on for the outside to write. Only a buffer gives text back and only a buffer
can be cleared.
-/

namespace ScopeMachine

/-- Where printed text goes. -/
inductive Sink where
  /-- Kept in memory. -/
  | buffer (text : String)
  /-- Dropped. -/
  | silent
  /-- Waiting to be written outside. -/
  | console (pending : String)
deriving DecidableEq

namespace Sink

/-- Sink after a text has been printed. -/
def print (sink : Sink) (text : String) : Sink :=
  match sink with
  | buffer kept => buffer (kept ++ text)
  | silent => silent
  | console pending => console (pending ++ text)

/-- Sink after a text and the end of a line have been printed. -/
def println (sink : Sink) (text : String) : Sink := (sink.print text).print "\n"

/-- Text kept so far. -/
def output : Sink → String
  | buffer text => text
  | silent | console _ => ""

/-- Sink with the kept text dropped. -/
def clear : Sink → Sink
  | buffer _ => buffer ""
  | sink => sink

/-- A buffer keeps what is printed after what it had. -/
@[simp] theorem output_print_buffer (kept text : String) :
    ((buffer kept).print text).output = kept ++ text := rfl

end Sink

end ScopeMachine
