/-! # Operator names

A key of a filter document that starts with a dollar sign names an operator of the document store;
every other key names a field.  This module lists the operators that filters are built from. -/

namespace QueryFilter

/-- The name starts with a dollar sign. -/
def isOperatorName (name : String) : Bool := name.toList.head? == some '$'

namespace Op

def and : String := "$and"
def or : String := "$or"
def ne : String := "$ne"
def gt : String := "$gt"
def gte : String := "$gte"
def lt : String := "$lt"
def lte : String := "$lte"
def regex : String := "$regex"
def options : String := "$options"
def text : String := "$text"
def search : String := "$search"
def present : String := "$exists"

end Op

end QueryFilter
