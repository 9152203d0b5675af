/-!
# Log records

What the library reports about its steps, each record with its level and where it comes from.
-/

namespace MailMerge

namespace Log

inductive Level where
  | debug
  | info
  | warning
deriving DecidableEq

inductive Origin where
  | package
  | document
  | merge
  | batch
deriving DecidableEq

structure Record where
  level : Level
  origin : Origin
  message : String
deriving DecidableEq

def Level.text : Level → String
  | debug => "DEBUG"
  | info => "INFO"
  | warning => "WARNING"

def Origin.text : Origin → String
  | package => "docx_merge.package"
  | document => "docx_merge.document"
  | merge => "docx_merge.merge"
  | batch => "docx_merge.batch"

/-- A record on one line with all that is known of it. -/
def Record.text (r : Record) : String := r.level.text ++ " " ++ r.origin.text ++ ": " ++ r.message

end Log

/-- Records in the order they were made. -/
abbrev Log := List Log.Record

end MailMerge
