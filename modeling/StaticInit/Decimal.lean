/-!
# Decimal text

The one spelling that the library writes numbers in: decimal digits without
leading zeros, after a minus sign for the negative ones.
-/

namespace StaticInit.Decimal

def signed (x : Int32) : String := x.toInt.repr

def unsigned (x : UInt32) : String := x.toNat.repr

end StaticInit.Decimal
