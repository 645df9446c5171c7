import BearerAccess.Text.Percent
set_option autoImplicit false

namespace BearerAccess.Form

def plainSigns : List Char := ['*', '-', '.', '_']

def isPlain (c : Char) : Bool := c.isAlphanum || plainSigns.contains c

def component (text : String) : List Char :=
  text.toList.flatMap fun c => if c = ' ' then ['+'] else Percent.encode isPlain [c]

def field (f : String × String) : List Char := component f.1 ++ '=' :: component f.2

def encode (fields : List (String × String)) : List Char :=
  ['&'].intercalate (fields.map field)

def contentType : String := "application/x-www-form-urlencoded"

end BearerAccess.Form
