import Multidigraph.Text.Search

namespace Multidigraph

structure LabelPattern where
  atStart : Bool
  atEnd : Bool
  body : List Char

namespace LabelPattern

/-- All leading `^` and then all trailing `$` are taken off. A lone `$` ties nothing. -/
def ofChars (cs : List Char) : LabelPattern where
  atStart := cs.head? = some '^'
  atEnd := 1 < cs.length ∧ cs.getLast? = some '$'
  body := ((cs.dropWhile (· = '^')).reverse.dropWhile (· = '$')).reverse

def accepts (p : LabelPattern) (label : List Char) : Bool :=
  match p.atStart, p.atEnd with
  | true, true => label = p.body
  | true, false => p.body.isPrefixOf label
  | false, true => p.body.isSuffixOf label
  | false, false => Text.occursIn p.body label

end LabelPattern

end Multidigraph
