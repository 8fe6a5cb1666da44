import RelationalMapper.Binary64.Basic

set_option autoImplicit false

namespace RelationalMapper

inductive Json where
  | null
  | bool (truth : Bool)
  | integer (number : Int)
  | real (number : Binary64)
  | text (content : String)
  | array (items : List Json)
  | object (members : List (String × Json))
  | unrepresentable
deriving Inhabited

end RelationalMapper
